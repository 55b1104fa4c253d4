import Chit402.ComputeMarketProofs
import Std.Data.String.ToNat

/-! # What the messages of the compute marketplace write

    The loops that close bids change each listed bid at most once and pay
    its deposit when they do.  For each message, what it writes to the tasks
    and bids and what it sends is said once; nothing later unfolds a
    handler. -/

namespace ComputeMarketStep

open ExceptFlow OrderedMap ComputeMarket

variable {s s' : Store} {sends : List BankSend} {env : Env} {info : MessageInfo}

/-! ## Ids -/

theorem last_segment {l l' ds ds' : List Char} (hds : '-' ∉ ds) (hds' : '-' ∉ ds')
    (h : l ++ '-' :: ds = l' ++ '-' :: ds') : ds = ds' := by
  rcases List.append_eq_append_iff.mp h with ⟨as, -, hrest⟩ | ⟨as, -, hrest⟩
  · cases as with
    | nil => exact (List.cons.inj hrest).2
    | cons a as =>
      obtain ⟨-, rfl⟩ := List.cons.inj hrest
      simp at hds
  · cases as with
    | nil => exact (List.cons.inj hrest).2.symm
    | cons a as =>
      obtain ⟨-, rfl⟩ := List.cons.inj hrest
      simp at hds'

theorem dash_notMem (n : ℕ) : '-' ∉ (toString n).toList := by
  intro h
  rw [show toString n = n.repr from rfl, Nat.toList_repr] at h
  exact absurd (Nat.isDigit_of_mem_toDigits (by decide) (by decide) h) (by decide)

variable {b : Bid} {ids : List String} {bids : OrderedMap String Bid} {p : Purpose} {e : StdError}
  {bidId id taskId : String} {m n : ℕ}

theorem numbered_inj {a b : String} (h : a ++ "-" ++ toString m = b ++ "-" ++ toString n) : m = n := by
  have hlists := congrArg String.toList h
  rw [String.toList_append, String.toList_append, String.toList_append, String.toList_append] at hlists
  have hdigits : (toString m).toList = (toString n).toList :=
    last_segment (dash_notMem m) (dash_notMem n) (by simpa using hlists)
  exact Nat.repr_injective (String.toList_injective hdigits)

theorem taskIdOf_inj {height height' : ℕ} (h : taskIdOf height m = taskIdOf height' n) : m = n :=
  numbered_inj h

theorem bidIdOf_inj {taskId' : String} (h : bidIdOf taskId m = bidIdOf taskId' n) : m = n :=
  numbered_inj h

/-! ## What was paid for a record -/

/-- The payments made for a record, in order: to whom, and how much. -/
def paidFor (p : Purpose) (sends : List BankSend) : List (String × ℕ) :=
  (sends.filter fun m => m.purpose = p).map fun m => (m.toAddress, m.amount.amount)

/-- Payments over nothing are not made. -/
def nonzero (l : List (String × ℕ)) : List (String × ℕ) := l.filter fun e => e.2 ≠ 0

def total (l : List (String × ℕ)) : ℕ := (l.map Prod.snd).sum

@[simp] theorem paidFor_nil (p : Purpose) : paidFor p [] = [] := rfl

theorem paidFor_append (p : Purpose) (l r : List BankSend) : paidFor p (l ++ r) = paidFor p l ++ paidFor p r := by
  unfold paidFor
  rw [List.filter_append, List.map_append]

theorem paidFor_sendNonzero (p : Purpose) (toAddress : String) (amount : ℕ) :
    paidFor p (sendNonzero p toAddress amount) = nonzero [(toAddress, amount)] := by
  unfold sendNonzero
  by_cases hzero : amount = 0
  · simp [hzero, nonzero]
  · simp [hzero, nonzero, paidFor]

theorem paidFor_sendNonzero_ne {q : Purpose} (hne : q ≠ p) (toAddress : String) (amount : ℕ) :
    paidFor p (sendNonzero q toAddress amount) = [] := by
  unfold sendNonzero
  by_cases hzero : amount = 0
  · rw [if_pos hzero, paidFor_nil]
  · simp [hzero, paidFor, hne]

theorem nonzero_append (l r : List (String × ℕ)) : nonzero (l ++ r) = nonzero l ++ nonzero r := List.filter_append ..

theorem total_nonzero (l : List (String × ℕ)) : total (nonzero l) = total l := by
  induction l with
  | nil => rfl
  | cons e rest ih =>
    unfold total nonzero at ih ⊢
    by_cases hzero : e.2 = 0
    · rw [List.filter_cons_of_neg (by simp [hzero]), ih]
      simp [hzero]
    · rw [List.filter_cons_of_pos (by simp [hzero]), List.map_cons, List.sum_cons, ih, List.map_cons, List.sum_cons]

/-! ## Closing bids -/

/-- A bid the loops close, if its turn comes. -/
def Releasable (b : Bid) : Prop := b.active = true ∧ b.deposit ≠ 0

instance (b : Bid) : Decidable (Releasable b) := inferInstanceAs (Decidable (_ ∧ _))

/-- What a bid is after the loop over `ids`. -/
def released (ids : List String) (id : String) (b : Bid) : Bid :=
  if id ∈ ids ∧ Releasable b then { b with active := false } else b

/-- What is paid for a bid by the loop over `ids`. -/
def refunds (ids : List String) (id : String) (b : Bid) : List (String × ℕ) :=
  if id ∈ ids ∧ Releasable b then [(b.provider, b.deposit)] else []

theorem released_of (hid : id ∈ ids) (hrel : Releasable b) :
    released ids id b = { b with active := false } := if_pos ⟨hid, hrel⟩

theorem released_keep (h : id ∈ ids → ¬ Releasable b) : released ids id b = b := if_neg fun hc => h hc.1 hc.2

theorem refunds_of (hid : id ∈ ids) (hrel : Releasable b) :
    refunds ids id b = [(b.provider, b.deposit)] := if_pos ⟨hid, hrel⟩

theorem refunds_keep (h : id ∈ ids → ¬ Releasable b) : refunds ids id b = [] := if_neg fun hc => h hc.1 hc.2

theorem releaseBid_of {bid : Bid} (hbid : bids.lookup bidId = some bid) (hrel : Releasable bid) :
    releaseBid bidId bids = (set bids bidId { bid with active := false },
      [⟨.deposit bidId, bid.provider, ⟨"uakt", bid.deposit⟩⟩]) := by
  rw [releaseBid, hbid]
  exact if_pos hrel

theorem releaseBid_keep (h : ∀ bid, bids.lookup bidId = some bid → ¬ Releasable bid) :
    releaseBid bidId bids = (bids, []) := by
  rw [releaseBid]
  cases hbid : bids.lookup bidId with
  | none => rfl
  | some bid => exact if_neg (h bid hbid)

theorem releaseBid_cases (bidId : String) (bids : OrderedMap String Bid) :
    (∃ bid, bids.lookup bidId = some bid ∧ Releasable bid)
      ∨ ∀ bid, bids.lookup bidId = some bid → ¬ Releasable bid := by
  by_cases h : ∃ bid, bids.lookup bidId = some bid ∧ Releasable bid
  · exact .inl h
  · exact .inr fun bid hbid hrel => h ⟨bid, hbid, hrel⟩

theorem releaseBid_lookup (bidId id : String) (bids : OrderedMap String Bid) :
    (releaseBid bidId bids).1.lookup id = (bids.lookup id).map (released [bidId] id) := by
  rcases releaseBid_cases bidId bids with ⟨bid, hbid, hrel⟩ | hkeep
  · rw [releaseBid_of hbid hrel]
    by_cases hid : id = bidId
    · subst hid
      rw [lookup_set_self, hbid, Option.map_some, released_of (List.mem_singleton_self id) hrel]
    · rw [lookup_set_ne bids _ hid]
      cases bids.lookup id with
      | none => rfl
      | some b => rw [Option.map_some, released_keep fun h => absurd (List.mem_singleton.mp h) hid]
  · rw [releaseBid_keep hkeep]
    cases hid : bids.lookup id with
    | none => rfl
    | some b =>
      rw [Option.map_some, released_keep]
      intro hmem
      rw [List.mem_singleton.mp hmem] at hid
      exact hkeep b hid

theorem releaseBid_paid (bidId id : String) (bids : OrderedMap String Bid) :
    paidFor (.deposit id) (releaseBid bidId bids).2 = (bids.lookup id).elim [] (refunds [bidId] id) := by
  rcases releaseBid_cases bidId bids with ⟨bid, hbid, hrel⟩ | hkeep
  · rw [releaseBid_of hbid hrel]
    by_cases hid : id = bidId
    · subst hid
      rw [hbid, Option.elim_some, refunds_of (List.mem_singleton_self id) hrel]
      simp [paidFor]
    · have hpaid : paidFor (.deposit id) [⟨.deposit bidId, bid.provider, ⟨"uakt", bid.deposit⟩⟩] = [] := by
        simp [paidFor, Ne.symm hid]
      rw [hpaid]
      cases bids.lookup id with
      | none => rfl
      | some b => rw [Option.elim_some, refunds_keep fun h => absurd (List.mem_singleton.mp h) hid]
  · rw [releaseBid_keep hkeep, paidFor_nil]
    cases hid : bids.lookup id with
    | none => rfl
    | some b =>
      rw [Option.elim_some, refunds_keep]
      intro hmem
      rw [List.mem_singleton.mp hmem] at hid
      exact hkeep b hid

theorem not_releasable_closed (b : Bid) : ¬ Releasable { b with active := false } := fun h => nomatch h.1

/-- Closing twice is closing once, and pays once. -/
theorem released_cons (bidId id : String) (rest : List String) (b : Bid) :
    released rest id (released [bidId] id b) = released (bidId :: rest) id b
      ∧ refunds [bidId] id b ++ refunds rest id (released [bidId] id b) = refunds (bidId :: rest) id b := by
  by_cases hrel : Releasable b
  · by_cases hid : id = bidId
    · have hself : id ∈ [bidId] := List.mem_singleton.mpr hid
      have hmem : id ∈ bidId :: rest := List.mem_cons.mpr (.inl hid)
      rw [released_of hself hrel, released_of hmem hrel, refunds_of hself hrel, refunds_of hmem hrel,
        released_keep fun _ => not_releasable_closed b, refunds_keep fun _ => not_releasable_closed b]
      exact ⟨rfl, rfl⟩
    · have hskip : released [bidId] id b = b := released_keep fun h => absurd (List.mem_singleton.mp h) hid
      have hnone : refunds [bidId] id b = [] := refunds_keep fun h => absurd (List.mem_singleton.mp h) hid
      rw [hskip, hnone, List.nil_append]
      simp [released, refunds, hid]
  · have hskip : ∀ ids, released ids id b = b := fun ids => released_keep fun _ => hrel
    have hnone : ∀ ids, refunds ids id b = [] := fun ids => refunds_keep fun _ => hrel
    rw [hskip, hskip, hskip, hnone, hnone, hnone]
    exact ⟨rfl, rfl⟩

/-- **CLOSED**: the loop closes the listed bids, and no others. -/
theorem releaseBids_lookup (ids : List String) (id : String) (bids : OrderedMap String Bid) :
    (releaseBids ids bids).1.lookup id = (bids.lookup id).map (released ids id) := by
  induction ids generalizing bids with
  | nil =>
    have hsame : released [] id = fun b => b := by
      funext b
      simp [released]
    rw [hsame, Option.map_id']
    rfl
  | cons bidId rest ih =>
    show (releaseBids rest (releaseBid bidId bids).1).1.lookup id = _
    rw [ih, releaseBid_lookup, Option.map_map]
    congr 1
    funext b
    exact (released_cons bidId id rest b).1

theorem releaseBids_paid (ids : List String) (id : String) (bids : OrderedMap String Bid) :
    paidFor (.deposit id) (releaseBids ids bids).2 = (bids.lookup id).elim [] (refunds ids id) := by
  induction ids generalizing bids with
  | nil =>
    cases bids.lookup id <;> simp [releaseBids, refunds]
  | cons bidId rest ih =>
    show paidFor _ ((releaseBid bidId bids).2 ++ (releaseBids rest (releaseBid bidId bids).1).2) = _
    rw [paidFor_append, ih, releaseBid_paid, releaseBid_lookup]
    cases bids.lookup id with
    | none => rfl
    | some b => exact (released_cons bidId id rest b).2

/-- The loops pay deposits only. -/
theorem releaseBids_purpose (ids : List String) (bids : OrderedMap String Bid) :
    ∀ m ∈ (releaseBids ids bids).2, ∃ id, m.purpose = .deposit id := by
  induction ids generalizing bids with
  | nil => exact fun m hm => absurd hm List.not_mem_nil
  | cons bidId rest ih =>
    intro m hm
    rcases List.mem_append.mp hm with hfirst | hrest
    · rw [releaseBid] at hfirst
      split at hfirst
      · split at hfirst
        · rw [List.mem_singleton.mp hfirst]
          exact ⟨bidId, rfl⟩
        · exact absurd hfirst List.not_mem_nil
      · exact absurd hfirst List.not_mem_nil
    · exact ih (releaseBid bidId bids).1 m hrest

theorem paidFor_eq_nil {l : List BankSend} (h : ∀ m ∈ l, m.purpose ≠ p) : paidFor p l = [] := by
  unfold paidFor
  rw [List.map_eq_nil_iff, List.filter_eq_nil_iff]
  intro m hm
  simpa using h m hm

theorem releaseBids_paid_escrow (ids : List String) (bids : OrderedMap String Bid) (taskId : String) :
    paidFor (.escrow taskId) (releaseBids ids bids).2 = [] := by
  apply paidFor_eq_nil
  intro m hm
  obtain ⟨id, hid⟩ := releaseBids_purpose ids bids m hm
  rw [hid]
  exact fun h => nomatch h

theorem releaseBids_paid_fee (ids : List String) (bids : OrderedMap String Bid) (taskId : String) :
    paidFor (.fee taskId) (releaseBids ids bids).2 = [] := by
  apply paidFor_eq_nil
  intro m hm
  obtain ⟨id, hid⟩ := releaseBids_purpose ids bids m hm
  rw [hid]
  exact fun h => nomatch h

/-! ## What a message writes -/

theorem load_ok_iff {α : Type} {m : OrderedMap String α} {key : String} {v : α} :
    load m key e = .ok v ↔ m.lookup key = some v := by
  unfold load
  cases m.lookup key with
  | none => exact ⟨fun h => (nomatch h), fun h => (nomatch h)⟩
  | some u => exact ⟨fun h => congrArg some (Except.ok.inj h), fun h => congrArg Except.ok (Option.some.inj h)⟩

theorem increment_ok (h : increment n = .ok m) : m = n + 1 := by
  unfold increment at h
  split at h
  · exact (Except.ok.inj h).symm
  · cases h

theorem checkedSub_ok {a b : ℕ} (h : checkedSub a b e = .ok n) : b ≤ a ∧ n = a - b := by
  unfold checkedSub at h
  split at h
  · rename_i hle
    exact ⟨hle, (Except.ok.inj h).symm⟩
  · cases h

/-- The statuses in which a task takes bids. -/
def Early (status : TaskStatus) : Prop := status = .open ∨ status = .bidding

theorem early_of_not {status : TaskStatus} (h : ¬ (status ≠ .open ∧ status ≠ .bidding)) : Early status := by
  by_cases hopen : status = .open
  · exact .inl hopen
  · exact .inr (Decidable.not_not.mp fun hne => h ⟨hopen, hne⟩)

/-- What `submitTask` writes and sends. -/
structure Submitted (env : Env) (info : MessageInfo) (s s' : Store) (sends : List BankSend) (task : Task) (fee : ℕ) :
    Prop where
  tasks : s'.tasks = set s.tasks (taskIdOf env.height s.taskCount) task
  key : task.taskId = taskIdOf env.height s.taskCount
  status : task.status = .open
  fee_le : fee ≤ acceptedAmount info.funds
  escrow : task.escrow = acceptedAmount info.funds - fee
  taskBidList : s'.taskBidList = set s.taskBidList (taskIdOf env.height s.taskCount) []
  taskCount : s'.taskCount = s.taskCount + 1
  bids : s'.bids = s.bids
  bidCount : s'.bidCount = s.bidCount
  sends : sends = sendNonzero (.fee (taskIdOf env.height s.taskCount)) s.config.revenueSplitter fee

theorem submitTask_ok {specId sdlHash : String} {maxPrice duration : ℕ}
    (hok : submitTask env info specId sdlHash maxPrice duration s = .ok (s', sends)) :
    ∃ task fee, Submitted env info s s' sends task fee := by
  obtain ⟨_, -, hok⟩ := bind_iff.mp hok
  obtain ⟨_, -, hok⟩ := bind_iff.mp hok
  obtain ⟨-, hok⟩ := guarded_iff.mp hok
  obtain ⟨fee, -, hok⟩ := bind_iff.mp hok
  obtain ⟨net, hnet, hok⟩ := bind_iff.mp hok
  obtain ⟨hle, rfl⟩ := checkedSub_ok hnet
  obtain ⟨count, hcount, hok⟩ := bind_iff.mp hok
  obtain rfl := increment_ok hcount
  obtain ⟨_, -, hok⟩ := bind_iff.mp hok
  obtain ⟨_, -, hok⟩ := bind_iff.mp hok
  obtain ⟨_, -, hok⟩ := bind_iff.mp hok
  cases hok
  exact ⟨_, fee, { tasks := rfl, key := rfl, status := rfl, fee_le := hle, escrow := rfl, taskBidList := rfl
                   taskCount := rfl, bids := rfl, bidCount := rfl, sends := rfl }⟩

/-- What `placeBid` writes; it sends nothing. -/
structure Placed (info : MessageInfo) (taskId : String) (s s' : Store) (task : Task) (bid : Bid)
    (bidList : List String) : Prop where
  bids : s'.bids = set s.bids (bidIdOf taskId s.bidCount) bid
  key : bid.bidId = bidIdOf taskId s.bidCount
  under : bid.taskId = taskId
  active : bid.active = true
  deposit : bid.deposit = acceptedAmount info.funds
  enough : minDeposit ≤ bid.deposit
  found : s.tasks.lookup taskId = some task
  early : Early task.status
  listed : s.taskBidList.lookup taskId = some bidList
  bidCount : s'.bidCount = s.bidCount + 1
  taskBidList : s'.taskBidList = set s.taskBidList taskId (bidList ++ [bidIdOf taskId s.bidCount])
  tasks : s'.tasks = if task.status = .open then set s.tasks taskId { task with status := .bidding } else s.tasks
  taskCount : s'.taskCount = s.taskCount

theorem placeBid_ok {price : ℕ} (hok : placeBid env info taskId price s = .ok (s', sends)) :
    sends = [] ∧ ∃ task bid bidList, Placed info taskId s s' task bid bidList := by
  obtain ⟨task, htask, hok⟩ := bind_iff.mp hok
  obtain ⟨hstatus, hok⟩ := guarded_iff.mp hok
  obtain ⟨-, hok⟩ := guarded_iff.mp hok
  obtain ⟨hdeposit, hok⟩ := guarded_iff.mp hok
  obtain ⟨count, hcount, hok⟩ := bind_iff.mp hok
  obtain rfl := increment_ok hcount
  obtain ⟨bidList, hlist, hok⟩ := bind_iff.mp hok
  obtain ⟨_, -, hok⟩ := bind_iff.mp hok
  cases hok
  exact ⟨rfl, task, _, bidList, {
    bids := rfl, key := rfl, under := rfl, active := rfl, deposit := rfl, enough := Nat.not_lt.mp hdeposit
    found := load_ok_iff.mp htask, early := early_of_not hstatus, listed := load_ok_iff.mp hlist
    bidCount := rfl, taskBidList := rfl, tasks := rfl, taskCount := rfl }⟩

/-- What closing the bids of a task writes, and the deposits it sends. -/
structure Closed (taskId : String) (task : Task) (ids : List String) (s s' : Store) (refunded : List BankSend) :
    Prop where
  tasks : s'.tasks = set s.tasks taskId task
  bids : s'.bids = (releaseBids ids s.bids).1
  refunded : refunded = (releaseBids ids s.bids).2
  taskBidList : s'.taskBidList = s.taskBidList
  taskCount : s'.taskCount = s.taskCount
  bidCount : s'.bidCount = s.bidCount

/-- Accepting closes the winner and every other bid on the list. -/
theorem acceptBid_ok (hok : acceptBid info bidId s = .ok (s', sends))
    (hstake : ∀ bid, s.bids.lookup bidId = some bid → bid.deposit ≠ 0) :
    ∃ bid task bidList, s.bids.lookup bidId = some bid ∧ bid.active = true ∧ s.tasks.lookup bid.taskId = some task
      ∧ s.taskBidList.lookup bid.taskId = some bidList
      ∧ Closed bid.taskId { task with status := .assigned, winningBidId := bidId }
          (bidId :: bidList.filter fun id => id ≠ bidId) s s' sends := by
  obtain ⟨bid, hbid, hok⟩ := bind_iff.mp hok
  obtain ⟨hactive, hok⟩ := guarded_iff.mp hok
  obtain ⟨task, htask, hok⟩ := bind_iff.mp hok
  obtain ⟨-, hok⟩ := guarded_iff.mp hok
  obtain ⟨bidList, hlist, hok⟩ := bind_iff.mp hok
  cases hok
  have hlookup : s.bids.lookup bidId = some bid := load_ok_iff.mp hbid
  have hnonzero : bid.deposit ≠ 0 := hstake bid hlookup
  have hrel : Releasable bid := ⟨Bool.eq_true_of_not_eq_false hactive, hnonzero⟩
  -- the winner's own refund is the loop's first turn
  have hfirst : releaseBid bidId s.bids = (set s.bids bidId { bid with active := false },
      sendNonzero (.deposit bidId) bid.provider bid.deposit) := by
    rw [releaseBid_of hlookup hrel, sendNonzero, if_neg hnonzero]
  refine ⟨bid, task, bidList, hlookup, hrel.1, load_ok_iff.mp htask, load_ok_iff.mp hlist, rfl, ?_, ?_, rfl, rfl, rfl⟩
  · rw [releaseBids, hfirst]
  · rw [releaseBids, hfirst]

/-- What `settleTask` writes and sends. -/
structure Settled (taskId : String) (s s' : Store) (sends : List BankSend) (task task' : Task) (bid : Bid) : Prop where
  tasks : s'.tasks = set s.tasks taskId task'
  found : s.tasks.lookup taskId = some task
  status : task.status = .assigned ∨ task.status = .computing
  winner : s.bids.lookup task.winningBidId = some bid
  done : task'.status = .settled
  same : task'.taskId = task.taskId ∧ task'.requester = task.requester ∧ task'.escrow = task.escrow
    ∧ task'.duration = task.duration ∧ task'.winningBidId = task.winningBidId
  bids : s'.bids = s.bids
  taskBidList : s'.taskBidList = s.taskBidList
  taskCount : s'.taskCount = s.taskCount
  bidCount : s'.bidCount = s.bidCount
  sends : sends = sendNonzero (.escrow taskId) bid.provider (min (bid.price * task.duration) task.escrow)
    ++ sendNonzero (.escrow taskId) task.requester (task.escrow - min (bid.price * task.duration) task.escrow)

theorem settleTask_ok {outputHash nullifier : String}
    (hok : settleTask env info taskId outputHash nullifier s = .ok (s', sends)) :
    ∃ task task' bid, Settled taskId s s' sends task task' bid := by
  obtain ⟨-, hok⟩ := guarded_iff.mp hok
  obtain ⟨-, hok⟩ := guarded_iff.mp hok
  obtain ⟨task, htask, hok⟩ := bind_iff.mp hok
  obtain ⟨hstatus, hok⟩ := guarded_iff.mp hok
  obtain ⟨bid, hbid, hok⟩ := bind_iff.mp hok
  obtain ⟨payout, hpayout, hok⟩ := bind_iff.mp hok
  obtain ⟨refund, hrefund, hok⟩ := bind_iff.mp hok
  obtain ⟨_, -, hok⟩ := bind_iff.mp hok
  cases hok
  obtain rfl : payout = bid.price * task.duration := by
    unfold checkedMul at hpayout
    split at hpayout
    · exact (Except.ok.inj hpayout).symm
    · cases hpayout
  have hmin : (if task.escrow < bid.price * task.duration then task.escrow else bid.price * task.duration)
      = min (bid.price * task.duration) task.escrow := by
    split <;> omega
  obtain ⟨-, rfl⟩ := checkedSub_ok hrefund
  have hassigned : task.status = .assigned ∨ task.status = .computing := by
    by_cases hfirst : task.status = .assigned
    · exact .inl hfirst
    · exact .inr (Decidable.not_not.mp fun hne => hstatus ⟨hfirst, hne⟩)
  rw [hmin]
  exact ⟨task, _, bid, {
    tasks := rfl, found := load_ok_iff.mp htask, status := hassigned, winner := load_ok_iff.mp hbid, done := rfl
    same := ⟨rfl, rfl, rfl, rfl, rfl⟩, bids := rfl, taskBidList := rfl, taskCount := rfl, bidCount := rfl
    sends := rfl }⟩

theorem cancelTask_ok (hok : cancelTask info taskId s = .ok (s', sends)) :
    ∃ task refunded, s.tasks.lookup taskId = some task ∧ Early task.status
      ∧ Closed taskId
        { task with status := .cancelled, escrow := 0 } ((s.taskBidList.lookup taskId).getD []) s s' refunded
      ∧ sends = refunded ++ sendNonzero (.escrow taskId) task.requester task.escrow := by
  obtain ⟨task, htask, hok⟩ := bind_iff.mp hok
  obtain ⟨-, hok⟩ := guarded_iff.mp hok
  obtain ⟨hstatus, hok⟩ := guarded_iff.mp hok
  cases hok
  exact ⟨task, _, load_ok_iff.mp htask, early_of_not hstatus, ⟨rfl, rfl, rfl, rfl, rfl, rfl⟩, rfl⟩

/-- Messages that touch no task and no bid. -/
structure Idle (s s' : Store) : Prop where
  tasks : s'.tasks = s.tasks
  bids : s'.bids = s.bids
  taskBidList : s'.taskBidList = s.taskBidList
  taskCount : s'.taskCount = s.taskCount
  bidCount : s'.bidCount = s.bidCount

theorem registerGPUSpec_ok {vendor model : String} {vramMb cudaCores basePrice : ℕ}
    (hok : registerGPUSpec info vendor model vramMb cudaCores basePrice s = .ok (s', sends)) :
    Idle s s' ∧ sends = [] := by
  obtain ⟨-, hok⟩ := guarded_iff.mp hok
  cases hok
  exact ⟨⟨rfl, rfl, rfl, rfl, rfl⟩, rfl⟩

theorem updateConfig_ok {chain : Chain} {feeBps : Option ℕ} {revenueSplitter zkVerifier : Option String}
    (hok : updateConfig chain info feeBps revenueSplitter zkVerifier s = .ok (s', sends)) : Idle s s' ∧ sends = [] := by
  obtain ⟨-, hok⟩ := guarded_iff.mp hok
  obtain ⟨-, hok⟩ := guarded_iff.mp hok
  obtain ⟨splitter, -, hok⟩ := bind_iff.mp hok
  obtain ⟨verifier, -, hok⟩ := bind_iff.mp hok
  cases hok
  exact ⟨⟨rfl, rfl, rfl, rfl, rfl⟩, rfl⟩

end ComputeMarketStep
