import Chit402.ProviderStakingProofs

/-! # No early exit

    Requests share one pending bucket and one time at which it is free.  A
    request sets the time anew for the whole bucket, and nothing else puts
    anything in.  So what is withdrawn was all in the bucket at the last
    request, has waited since, and could be slashed at every state in
    between. -/

namespace ProviderExit

open Solidity Function ProviderStaking

variable {tx : Tx} {u : Address} {w w' : World} {supply : ℕ}

/-! ## The pending bucket -/

/-- A request of `u` that goes through. -/
def Requests (u : Address) (w : World) (tx : Tx) : Prop :=
  tx.sender = u ∧ (∃ amount, tx.call = .requestUnstake amount) ∧ ∃ w', exec tx w = .ok w'

/-- No more than before, and free at the same time. -/
def Shrinks (b b' : Unbonding) : Prop := b'.amount ≤ b.amount ∧ (b'.amount ≠ 0 → b'.unlockAt = b.unlockAt)

theorem Shrinks.refl (b : Unbonding) : Shrinks b b := ⟨Nat.le_refl _, fun _ => rfl⟩

/-- Nothing was requested, and the bucket has at most shrunk. -/
def Untouched (u : Address) (w w' : World) : Prop :=
  Shrinks (w.pool.pending u) (w'.pool.pending u) ∧ w'.requested u = w.requested u

/-- A transaction is a request of `u`, which sets the time, or leaves its bucket to shrink at most. -/
theorem exec_pending (h : exec tx w = .ok w') (u : Address) :
    (Requests u w tx ∧ (w'.pool.pending u).unlockAt = tx.timestamp + w.pool.unbondingPeriod) ∨ Untouched u w w' := by
  have hexec := h
  cases exec_effect h with
  | requested amount hcall hactive htotal =>
    by_cases hu : u = tx.sender
    · refine Or.inl ⟨⟨hu.symm, ⟨amount, hcall⟩, _, hexec⟩, ?_⟩
      show (update w.pool.pending tx.sender ⟨_, tx.timestamp + w.pool.unbondingPeriod⟩ u).unlockAt = _
      rw [hu, update_self]
    · refine Or.inr ?_
      show Shrinks (w.pool.pending u) (update w.pool.pending tx.sender _ u)
        ∧ update w.requested tx.sender _ u = w.requested u
      rw [update_of_ne hu, update_of_ne hu]
      exact ⟨Shrinks.refl _, rfl⟩
  | withdrew hcall hheld =>
    refine Or.inr ⟨?_, rfl⟩
    show Shrinks (w.pool.pending u) (update w.pool.pending tx.sender ⟨0, 0⟩ u)
    by_cases hu : u = tx.sender
    · rw [hu, update_self]
      exact ⟨Nat.zero_le _, fun hne => (hne rfl).elim⟩
    · rw [update_of_ne hu]
      exact Shrinks.refl _
  | slashed v fromActive remainder hactive hpending htotal hheld =>
    refine Or.inr ⟨?_, rfl⟩
    show Shrinks (w.pool.pending u) (update w.pool.pending v ⟨_, _⟩ u)
    by_cases hu : u = v
    · rw [hu, update_self]
      exact ⟨Nat.sub_le _ _, fun _ => rfl⟩
    · rw [update_of_ne hu]
      exact Shrinks.refl _
  | configured s hsame =>
    refine Or.inr ⟨?_, rfl⟩
    show Shrinks (w.pool.pending u) (s.pending u)
    rw [hsame.pending]
    exact Shrinks.refl _
  | staked | moved | donated => exact Or.inr ⟨Shrinks.refl _, rfl⟩

/-! ## The last request -/

/-- The bucket of `u` waits for `request`, the last of its requests that went through: since then it has only shrunk. -/
structure Waiting (init : World) (u : Address) (txs before : List Tx) (request : Tx) (after : List Tx) : Prop where
  split : txs = before ++ request :: after
  requested : Requests u (run init before) request
  last : ∀ l tx r, after = l ++ tx :: r → ¬ Requests u (run init (before ++ request :: l)) tx
  free : ((run init txs).pool.pending u).unlockAt = request.timestamp + (run init before).pool.unbondingPeriod
  all : (run init txs).requested u = (run init (before ++ [request])).requested u
  shrunk : ∀ l r, after = l ++ r →
    ((run init txs).pool.pending u).amount ≤ ((run init (before ++ request :: l)).pool.pending u).amount

theorem step_pending (w : World) (tx : Tx) (u : Address) :
    (Requests u w tx ∧ ((step w tx).pool.pending u).unlockAt = tx.timestamp + w.pool.unbondingPeriod)
      ∨ (¬ Requests u w tx ∧ Untouched u w (step w tx)) := by
  by_cases hrequest : Requests u w tx
  · refine Or.inl ⟨hrequest, ?_⟩
    obtain ⟨rfl, ⟨amount, hcall⟩, w', h⟩ := hrequest
    have hstep : step w tx = w' := by
      unfold step
      rw [h]
    rw [hstep]
    unfold exec at h
    rw [hcall] at h
    obtain ⟨-, -, rfl⟩ := requestUnstake_ok h
    show (update w.pool.pending tx.sender ⟨_, tx.timestamp + w.pool.unbondingPeriod⟩ tx.sender).unlockAt = _
    rw [update_self]
  · refine Or.inr ⟨hrequest, ?_⟩
    unfold step
    split
    · next w' h =>
      rcases exec_pending h u with hreq | huntouched
      · exact (hrequest hreq.1).elim
      · exact huntouched
    · exact ⟨Shrinks.refl _, rfl⟩

/-- **WAITING**: along any run, what is pending waits for its last request. -/
theorem run_waiting {init : World} {u : Address} (hinit : (init.pool.pending u).amount = 0) (txs : List Tx)
    (hpending : ((run init txs).pool.pending u).amount ≠ 0) :
    ∃ before request after, Waiting init u txs before request after := by
  induction txs using List.reverseRecOn with
  | nil => exact (hpending hinit).elim
  | append_singleton txs tx ih =>
    have hrun : run init (txs ++ [tx]) = step (run init txs) tx := Trace.run_concat init txs tx
    rcases step_pending (run init txs) tx u with ⟨hrequest, hfree⟩ | ⟨hother, hshrinks, hsame⟩
    · refine ⟨txs, tx, [], rfl, hrequest, ?_, hrun ▸ hfree, rfl, ?_⟩
      · intro l tx' r hafter
        simp at hafter
      · intro l r hafter
        obtain ⟨rfl, rfl⟩ := List.append_eq_nil_iff.1 hafter.symm
        exact Nat.le_refl _
    · rw [hrun] at hpending
      have hbefore : ((run init txs).pool.pending u).amount ≠ 0 :=
        fun hzero => hpending (Nat.le_zero.1 (hzero ▸ hshrinks.1))
      obtain ⟨before, request, after, hsplit, hrequest, hlast, hfree, hall, hshrunk⟩ := ih hbefore
      refine ⟨before, request, after ++ [tx], by rw [hsplit, List.append_assoc, List.cons_append],
        hrequest, ?_, ?_, ?_, ?_⟩
      · intro l tx' r hafter
        rcases List.eq_nil_or_concat r with rfl | ⟨r, last, rfl⟩
        · obtain ⟨rfl, htx⟩ := List.append_inj' hafter rfl
          obtain rfl : tx = tx' := List.cons.inj htx |>.1
          rw [← hsplit]
          exact hother
        · rw [List.concat_eq_append, ← List.cons_append, ← List.append_assoc] at hafter
          exact hlast l tx' r (List.append_inj' hafter rfl).1
      · rw [hrun]
        exact (hshrinks.2 hpending).trans hfree
      · rw [hrun, hsame, hall]
      · intro l r hafter
        rw [hrun]
        rcases List.eq_nil_or_concat r with rfl | ⟨r, last, rfl⟩
        · rw [List.append_nil] at hafter
          rw [← hafter, ← List.cons_append, ← List.append_assoc, ← hsplit, hrun]
        · rw [List.concat_eq_append, ← List.append_assoc] at hafter
          exact Nat.le_trans hshrinks.1 (hshrunk l r (List.append_inj' hafter rfl).1)

/-! ## Slashing until then -/

/-- Any part of both buckets can be taken, as long as the counter of the provider's slashes fits its word. -/
def Exposed (w : World) (u : Address) : Prop :=
  ∀ amount, amount ≠ 0 → amount ≤ w.pool.active u + (w.pool.pending u).amount → w.pool.slashCount u + 1 < 2 ^ 256 →
    ∃ w', slash u amount true w = .ok w'
      ∧ w'.pool.active u + (w'.pool.pending u).amount + amount = w.pool.active u + (w.pool.pending u).amount

theorem buckets_le (h : Books supply w) (u : Address) :
    w.pool.active u ≤ w.pool.totalActiveStake ∧ w.pool.active u + (w.pool.pending u).amount ≤ w.held := by
  have hactive : w.pool.active u ≤ ∑ x, w.pool.active x :=
    Finset.single_le_sum (fun _ _ => Nat.zero_le _) (Finset.mem_univ u)
  have hpending : (w.pool.pending u).amount ≤ ∑ x, (w.pool.pending x).amount :=
    Finset.single_le_sum (f := fun x => (w.pool.pending x).amount) (fun _ _ => Nat.zero_le _) (Finset.mem_univ u)
  have hcustody := h.custody
  have htotal := h.total
  constructor <;> omega

/-- **EXPOSED**: the contract holds what it slashes. -/
theorem exposed_of_books (h : Books supply w) (hsupply : supply < 2 ^ 256) (u : Address) : Exposed w u := by
  intro amount hpos hamount hcount
  obtain ⟨htotal, hheld⟩ := buckets_le h u
  have hsum := h.supply
  have htaken : takenActive w u amount ≤ w.pool.active u := by
    unfold takenActive
    split_ifs <;> omega
  have hrest : amount - takenActive w u amount ≤ (w.pool.pending u).amount ∧ takenActive w u amount ≤ amount := by
    unfold takenActive
    split_ifs <;> omega
  refine ⟨_, slash_ok_iff.2 ⟨rfl, hpos, by omega, hamount, by omega, hcount, by omega, rfl⟩, ?_⟩
  show update w.pool.active u (w.pool.active u - takenActive w u amount) u
    + (update w.pool.pending u ⟨(w.pool.pending u).amount - (amount - takenActive w u amount), _⟩ u).amount + amount = _
  rw [update_self, update_self]
  dsimp only
  omega

/-- A withdrawal of `u` at `now`, out of the state the run ends in. -/
structure Due (init : World) (u : Address) (now : ℕ) (txs : List Tx) (w' : World) : Prop where
  notFrozen : (run init txs).pool.frozen u = false
  paid : w'.withdrawn u = (run init txs).withdrawn u + ((run init txs).pool.pending u).amount
  waited : ∃ before request after, Waiting init u txs before request after
    ∧ request.timestamp + (run init before).pool.unbondingPeriod ≤ now
    ∧ w'.withdrawn u ≤ (run init (before ++ [request])).requested u
    ∧ ∀ l r, after = l ++ r → Exposed (run init (before ++ request :: l)) u

/-- **CUSTODY AND NO EARLY EXIT**: the books hold after any run, and every withdrawal is due. -/
theorem custody_no_early_exit (treasury : Address) (minStake unbondingPeriod : ℕ) (balance : Address → ℕ) (held : ℕ)
    (hsupply : ∑ u, balance u + held < 2 ^ 256) (txs : List Tx) :
    Books (∑ u, balance u + held) (run (start treasury minStake unbondingPeriod balance held) txs)
      ∧ ∀ u now w', withdraw u now (run (start treasury minStake unbondingPeriod balance held) txs) = .ok w' →
        Due (start treasury minStake unbondingPeriod balance held) u now txs w' := by
  have hstart := start_books treasury minStake unbondingPeriod balance held
  refine ⟨run_books txs hstart, ?_⟩
  intro u now w' h
  obtain ⟨hfrozen, hpos, hdue, -, rfl⟩ := withdraw_ok_iff.1 h
  obtain ⟨before, request, after, hwaiting⟩ := run_waiting rfl txs hpos
  have hpaid : ((run (start treasury minStake unbondingPeriod balance held) txs).withdrawing u).withdrawn u
      = (run (start treasury minStake unbondingPeriod balance held) txs).withdrawn u
        + ((run (start treasury minStake unbondingPeriod balance held) txs).pool.pending u).amount := update_self ..
  refine ⟨hfrozen, hpaid, before, request, after, hwaiting, hwaiting.free ▸ hdue, ?_, ?_⟩
  · rw [hpaid, ← hwaiting.all, Nat.add_comm]
    exact (run_books txs hstart).requests u
  · intro l r _
    exact exposed_of_books (run_books _ hstart) hsupply u

def sampleProvider : Address := 0xB0B

def sampleTx (timestamp : ℕ) (call : Call) : Tx where
  sender := sampleProvider
  timestamp := timestamp
  call := call
  hasRole := true
  approved := true

/-- A request, a slash into both buckets and a shorter period. -/
def sampleTxs : List Tx :=
  [sampleTx 0 (.stake 1000), sampleTx 100 (.requestUnstake 400), sampleTx 110 (.slash sampleProvider 700),
    sampleTx 120 (.setParams 1 10 0xA11CE)]

def sampleBalance (u : Address) : ℕ := if u = sampleProvider then 1000 else 0

def sampleStart : World := start 0xA11CE 1 50 sampleBalance 0

/-- The period in force at the request counts. -/
theorem custody_no_early_exit_sample : (withdraw sampleProvider 149 (run sampleStart sampleTxs)).toBool = false
    ∧ ∃ w', withdraw sampleProvider 150 (run sampleStart sampleTxs) = .ok w' ∧ w'.withdrawn sampleProvider = 300
      ∧ Due sampleStart sampleProvider 150 sampleTxs w' := by
  have hsum : ∑ u, sampleBalance u = 1000 := by
    show (∑ u, if u = sampleProvider then 1000 else 0) = 1000
    rw [Finset.sum_ite_eq', if_pos (Finset.mem_univ sampleProvider)]
  have hsupply : ∑ u, sampleBalance u + 0 < 2 ^ 256 := by
    rw [hsum]
    decide
  have hwithdrawn : (run sampleStart sampleTxs).withdrawn sampleProvider
      + ((run sampleStart sampleTxs).pool.pending sampleProvider).amount = 300 := by decide +kernel
  have hok : (withdraw sampleProvider 150 (run sampleStart sampleTxs)).toBool = true := by decide +kernel
  refine ⟨by decide +kernel, ?_⟩
  cases h : withdraw sampleProvider 150 (run sampleStart sampleTxs) with
  | error e =>
    rw [h] at hok
    cases hok
  | ok w' =>
    have hdue := (custody_no_early_exit 0xA11CE 1 50 sampleBalance 0 hsupply sampleTxs).2 sampleProvider 150 w' h
    exact ⟨w', rfl, hdue.paid.trans hwithdrawn, hdue⟩

end ProviderExit
