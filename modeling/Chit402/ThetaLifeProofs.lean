import Chit402.ThetaLedgerProofs

/-! # The life of an intent

    Every call of the Theta circuit keeps its books, its holdings and the
    life cycle of its intents, as long as a failed intent was open and paid
    in native value.  `failIntent` checks neither, so `life_cycle` asks it
    of the run, and `failed_twice` is a run without. -/

namespace ThetaLife

open ExceptFlow Solidity Custody ThetaCircuit ThetaLedger Function Relation

variable {keccak256 : List UInt8 → Word} {m : Msg} {p : Peers}

/-! ## Calls made back -/

theorem play_covers (pending : Asset → Nat) (w : World) (n : Msg × OpenCall)
    (h : Covers (Books keccak256) owed pending w) : Covers (Books keccak256) owed pending (play keccak256 w n) := by
  rcases play_step keccak256 w n with heq | hstep
  · rw [heq]
    exact h
  · exact hstep.covers h

variable {useZkGPT : Bool} {s s' : Chain} {price : Nat} {tx : Tx} {w w' : World}

/-- What a list of calls back leaves standing. -/
theorem calls_stand (calls : List (Msg × OpenCall)) (h : Books keccak256 w.state) :
    Stands w.state (Trace.run (play keccak256) w calls).state := by
  refine (run_leaves Stands.refl Stands.trans (fun w n hw => ?_) calls h).2
  rcases play_step keccak256 w n with heq | hstep
  · rw [heq]
    exact ⟨hw, .refl _⟩
  · exact hstep.keeps hw

theorem calls_drawn (w : World) (calls : List (Msg × OpenCall)) :
    (Trace.run (play keccak256) w calls).state.drawn = w.state.drawn := by
  refine Trace.run_invariant (fun w' : World => w'.state.drawn = w.state.drawn) calls rfl fun w' n h => ?_
  rcases play_step keccak256 w' n with heq | hstep
  · rw [heq]
    exact h
  · exact hstep.drawn.trans h

/-! ## A new intent -/

/-- What a submission writes. -/
structure Opened (keccak256 : List UInt8 → Word) (m : Msg) (head : List UInt8) (asset : Asset) (payment : Nat)
    (s s' : Chain) : Prop where
  room : s.circuit.intentCount + 1 < 2 ^ 256
  intents : ∃ i, i.status = .submitted ∧ i.submittedAt = m.timestamp ∧ i.payment = payment
    ∧ s'.circuit.intents = update s.circuit.intents (keccak256 (head ++ bigEndian 32 s.circuit.intentCount)) i
  count : s'.circuit.intentCount = s.circuit.intentCount + 1
  tdropToken : s'.circuit.tdropToken = s.circuit.tdropToken
  drawn : s'.drawn = s.drawn ++ [head ++ bigEndian 32 s.circuit.intentCount]
  paidIn : s'.paidIn = update s.paidIn (keccak256 (head ++ bigEndian 32 s.circuit.intentCount)) asset
  approved : s'.approved = s.approved
  refunds : s'.refunds = s.refunds

variable {head : List UInt8} {asset : Asset} {serviceId inputHash : Word} {payment fee value : Nat}

theorem openIntent_ok (h : openIntent keccak256 m head asset serviceId inputHash payment fee s = .ok s') :
    Opened keccak256 m head asset payment s s' := by
  rw [openIntent, bind_iff] at h
  obtain ⟨count, hcount, h⟩ := h
  obtain ⟨hroom, rfl⟩ := addU_ok_iff.mp hcount
  obtain ⟨calls, -, h⟩ := bind_iff.mp h
  obtain ⟨totalCalls, -, h⟩ := bind_iff.mp h
  cases h
  exact ⟨hroom, ⟨_, rfl, rfl, rfl, rfl⟩, rfl, rfl, rfl, rfl, rfl, rfl⟩

theorem countVolume_ok (h : countVolume serviceId value fee s = .ok s') :
    ∃ c, s' = (s.put c) ∧ c.intents = s.circuit.intents
      ∧ c.intentCount = s.circuit.intentCount ∧ c.tdropToken = s.circuit.tdropToken := by
  rw [countVolume, bind_iff] at h
  obtain ⟨totalVolume, -, h⟩ := h
  obtain ⟨totalFees, -, h⟩ := bind_iff.mp h
  obtain ⟨volume, -, h⟩ := bind_iff.mp h
  cases h
  exact ⟨_, rfl, rfl, rfl, rfl⟩

theorem Opened.counted {s'' : Chain} (h : Opened keccak256 m head asset payment s s')
    (hcount : countVolume serviceId value fee s' = .ok s'') : Opened keccak256 m head asset payment s s'' := by
  obtain ⟨c, rfl, hintents, hnumber, htoken⟩ := countVolume_ok hcount
  obtain ⟨i, hstatus, hstamp, hpay, hwrite⟩ := h.intents
  exact ⟨h.room, ⟨i, hstatus, hstamp, hpay, hintents.trans hwrite⟩, hnumber.trans h.count,
    htoken.trans h.tdropToken, h.drawn, h.paidIn, h.approved, h.refunds⟩

/-- **SUBMITTED**: under a new id, so no record is lost, and exactly the payment is owed. -/
theorem Opened.keeps (h : Opened keccak256 m head asset payment s s') (hb : Books keccak256 s)
    (hhash : Set.InjOn keccak256 {q | q ∈ s'.drawn}) :
    Books keccak256 s' ∧ Follows s s' ∧ ∀ a, owed s' a = owed s a + (Pi.single asset payment : Asset → Nat) a := by
  obtain ⟨i, hstatus, hstamp, hpay, hwrite⟩ := h.intents
  have hroom := h.room
  have hpaidIn := h.paidIn
  rw [h.drawn] at hhash
  have hempty := not_not.mp (hb.drawn.fresh (by omega) hhash)
  obtain ⟨id, hid⟩ : ∃ id, id = keccak256 (head ++ bigEndian 32 s.circuit.intentCount) := ⟨_, rfl⟩
  rw [← hid] at hwrite hpaidIn hempty
  have hblank := hb.blank id hempty
  have hnew : s'.circuit.intents id = i := by rw [hwrite, update_self]
  have hne : ∀ x, x ≠ id → s'.circuit.intents x = s.circuit.intents x := fun x hx => by rw [hwrite, update_of_ne hx]
  have hpaid : ∀ x, x ≠ id → s'.paidIn x = s.paidIn x := fun x hx => by rw [hpaidIn, update_of_ne hx]
  have hpositive : i.submittedAt ≠ 0 := by
    rw [hstamp]
    exact Nat.ne_of_gt m.positive
  -- the new record is at an id drawn for the first time
  refine ⟨⟨?_, fun x hx => ?_, fun x hx => ?_, fun r hr => ?_, ?_⟩, ?_, fun a => ?_⟩
  · rw [h.drawn, h.count]
    refine hb.drawn.draw head fun x hx => ?_
    by_cases heq : x = id
    · exact .inr (heq.trans hid)
    · rw [hne x heq] at hx
      exact .inl hx
  · have heq : x ≠ id := by
      rintro rfl
      rw [hnew] at hx
      exact hpositive hx
    rw [hne x heq] at hx ⊢
    exact hb.blank x hx
  · by_cases heq : x = id
    · rw [heq, hnew, hstatus]
      exact .inl rfl
    · rw [hne x heq] at hx ⊢
      exact hb.live x hx
  · rw [h.refunds] at hr
    have hold := hb.refunded r hr
    have heq : r.intentId ≠ id := by
      intro heq
      have hfailed := hold.failed
      rw [heq, hblank] at hfailed
      cases hfailed
    refine ⟨?_, ?_, ?_, ?_⟩
    · rw [hne _ heq]
      exact hold.failed
    · rw [hpaid _ heq]
      exact hold.inKind
    · rw [hne _ heq]
      exact hold.requester
    · rw [hne _ heq]
      exact hold.amount
  · rw [h.refunds]
    exact hb.once
  · refine follows_of_move id ?_ hne
    rw [hblank, hnew, hstatus]
    exact .single .submit
  · have hchange := owed_change s s' id hpaid hne h.approved a
    have hold : due s a id = 0 := by
      rw [due, hblank]
      split
      · rfl
      · rfl
    have hdue : due s' a id = (Pi.single asset payment : Asset → Nat) a := by
      rw [due, hpaidIn, update_self, hnew, outstanding_of_open (by rw [hstatus]; decide), hpay]
      by_cases ha : asset = a
      · subst ha
        rw [if_pos rfl, Pi.single_eq_same]
      · rw [if_neg ha, Pi.single_eq_of_ne fun h => ha h.symm]
    omega

/-! ## Submissions -/

structure Keeps (keccak256 : List UInt8 → Word) (w w' : World) : Prop where
  covers : Covers (Books keccak256) owed 0 w'
  follows : Follows w.state w'.state

theorem submitNative_ok (h : submitNative keccak256 m head price value serviceId inputHash p w = .ok w') :
    ∃ fee netPayment s, value = netPayment + fee ∧ Opened keccak256 m head .native netPayment w.state s
      ∧ (w' = w.write s
        ∨ forward (play keccak256) Revert.feeFwd .native p.depositFee p.plainFee fee (w.write s) = .ok w') := by
  rw [submitNative, guarded_iff, bind_iff] at h
  obtain ⟨-, feeScaled, -, h⟩ := h
  obtain ⟨netPayment, hnet, h⟩ := bind_iff.mp h
  obtain ⟨hle, rfl⟩ := subU_ok_iff.mp hnet
  obtain ⟨s, hopen, h⟩ := bind_iff.mp h
  obtain ⟨s', hcount, h⟩ := bind_iff.mp h
  refine ⟨feeScaled / bpsDenom, _, s', by omega, (openIntent_ok hopen).counted hcount, ?_⟩
  split at h
  · exact .inr h
  · exact .inl (Except.ok.inj h).symm

theorem submitNative_drawn (h : submitNative keccak256 m head price value serviceId inputHash p w = .ok w') :
    w'.state.drawn = w.state.drawn ++ [head ++ bigEndian 32 w.state.circuit.intentCount] := by
  obtain ⟨fee, net, s, -, hopened, rfl | hforward⟩ := submitNative_ok h
  · exact hopened.drawn
  · obtain ⟨-, calls, rfl⟩ := forward_ok hforward
    rw [calls_drawn]
    exact hopened.drawn

theorem submitNative_keeps (hw : Covers (Books keccak256) owed 0 w)
    (hhash : Set.InjOn keccak256 {q | q ∈ w'.state.drawn})
    (h : submitNative keccak256 m head price value serviceId inputHash p (w.credit .native value) = .ok w') :
    Keeps keccak256 w w' := by
  have hdrawn := submitNative_drawn h
  obtain ⟨fee, net, s, hvalue, hopened, hend⟩ := submitNative_ok h
  rw [hdrawn, ← hopened.drawn] at hhash
  obtain ⟨hbooks, hfollows, howed⟩ := hopened.keeps hw.books hhash
  have hwrite : Covers (Books keccak256) owed (0 + Pi.single .native fee)
      ((w.credit .native value).write s) := by
    refine (hw.credit .native value).write hbooks fun a => ?_
    rw [zero_add, zero_add, howed a, hvalue, Pi.single_add, Pi.add_apply, World.credit_state]
    omega
  rcases hend with rfl | hforward
  · exact ⟨hwrite.drop, hfollows⟩
  · refine ⟨hwrite.forward play_covers hforward, ?_⟩
    obtain ⟨-, calls, rfl⟩ := forward_ok hforward
    exact hfollows.trans (calls_stand
      (w := ((w.credit Asset.native value).write s).debit Asset.native fee) calls hbooks).follows

theorem submitIntent_ok (h : submitIntent keccak256 m value serviceId inputHash p w = .ok w') :
    ∃ head price, submitNative keccak256 m head price value serviceId inputHash p
      (w.credit .native value) = .ok w' := by
  rw [submitIntent, guarded_iff, guarded_iff, guarded_iff] at h
  exact ⟨_, _, h.2.2.2⟩

theorem submitPresetIntent_ok {presetId : Word} {gpuTier : GpuTier}
    (h : submitPresetIntent keccak256 m value presetId gpuTier serviceId inputHash p w = .ok w') :
    ∃ head price, submitNative keccak256 m head price value serviceId inputHash p
      (w.credit .native value) = .ok w' := by
  rw [submitPresetIntent, guarded_iff, guarded_iff, guarded_iff, guarded_iff, guarded_iff, bind_iff] at h
  obtain ⟨-, -, -, -, -, price, -, h⟩ := h
  exact ⟨_, _, h⟩

/-- The splitter's allowance takes the fee's place. -/
theorem forwardTdropFee_keeps {token : Address} (htoken : w.state.circuit.tdropToken = token)
    (hw : Covers (Books keccak256) owed (0 + Pi.single (.erc20 token) fee) w) :
    Keeps keccak256 w (forwardTdropFee keccak256 fee p w) := by
  subst htoken
  rw [forwardTdropFee]
  split
  · split
    · have hwrite : Covers (Books keccak256) owed 0 (w.write
          (approve w.state.circuit.tdropToken w.state.circuit.revenueSplitter fee w.state)) := by
        refine hw.write ?_ fun a => ?_
        · have hb := hw.books
          exact ⟨hb.drawn, hb.blank, hb.live, fun r hr => ⟨(hb.refunded r hr).failed, (hb.refunded r hr).inKind,
            (hb.refunded r hr).requester, (hb.refunded r hr).amount⟩, hb.once⟩
        · have hchange := owed_approve w.state.circuit.tdropToken w.state.circuit.revenueSplitter fee w.state a
          rw [zero_add]
          show _ + 0 ≤ _
          omega
      refine ⟨hwrite.notify play_covers _, ?_⟩
      obtain ⟨calls, hrun⟩ : ∃ calls, notify (play keccak256) p.receiveERC20Fee (w.write
          (approve w.state.circuit.tdropToken w.state.circuit.revenueSplitter fee w.state))
        = Trace.run (play keccak256) _ calls := notify_eq _ _
      rw [hrun]
      exact (calls_stand calls hwrite.books).follows
    · exact ⟨hw.drop, .refl _⟩
  · exact ⟨hw.drop, .refl _⟩

theorem forwardTdropFee_drawn (w : World) : (forwardTdropFee keccak256 fee p w).state.drawn = w.state.drawn := by
  rw [forwardTdropFee]
  split
  · split
    · obtain ⟨calls, hrun⟩ : ∃ calls, notify (play keccak256) p.receiveERC20Fee (w.write
          (approve w.state.circuit.tdropToken w.state.circuit.revenueSplitter fee w.state))
        = Trace.run (play keccak256) _ calls := notify_eq _ _
      rw [hrun, calls_drawn]
      rfl
    · rfl
  · rfl

theorem submitIntentWithTDROP_ok (h : submitIntentWithTDROP keccak256 m serviceId inputHash p w = .ok w') :
    ∃ (head : List UInt8) (quote : TdropQuote) (c : State) (s : Chain),
      c.intents = w.state.circuit.intents ∧ c.intentCount = w.state.circuit.intentCount
      ∧ c.tdropToken = w.state.circuit.tdropToken
      ∧ Opened keccak256 m head (.erc20 w.state.circuit.tdropToken) quote.payment (w.state.put c) s
      ∧ w' = forwardTdropFee keccak256 quote.fee p ((w.credit (.erc20 w.state.circuit.tdropToken)
          (quote.payment + quote.fee)).write s) := by
  rw [submitIntentWithTDROP, guarded_iff, guarded_iff, guarded_iff, guarded_iff, bind_iff] at h
  obtain ⟨-, -, -, -, quote, -, h⟩ := h
  obtain ⟨required, hrequired, h⟩ := bind_iff.mp h
  obtain ⟨-, rfl⟩ := addU_ok_iff.mp hrequired
  rw [guarded_iff, bind_iff] at h
  obtain ⟨-, collected, -, h⟩ := h
  obtain ⟨s, hopen, h⟩ := bind_iff.mp h
  exact ⟨_, quote, { w.state.circuit with totalTdropCollected := collected }, s, rfl, rfl, rfl, openIntent_ok hopen,
    (Except.ok.inj h).symm⟩

theorem submitIntentWithTDROP_keeps (hw : Covers (Books keccak256) owed 0 w)
    (hhash : Set.InjOn keccak256 {q | q ∈ w'.state.drawn})
    (h : submitIntentWithTDROP keccak256 m serviceId inputHash p w = .ok w') : Keeps keccak256 w w' := by
  obtain ⟨head, quote, c, s, hintents, hcount, htoken, hopened, rfl⟩ := submitIntentWithTDROP_ok h
  rw [forwardTdropFee_drawn] at hhash
  obtain ⟨hbooks, hfollows, howed⟩ := hopened.keeps (hw.books.config hintents hcount) hhash
  have hwrite : Covers (Books keccak256) owed (0 + Pi.single (.erc20 w.state.circuit.tdropToken) quote.fee)
      ((w.credit (.erc20 w.state.circuit.tdropToken) (quote.payment + quote.fee)).write s) := by
    refine (hw.credit (.erc20 w.state.circuit.tdropToken) (quote.payment + quote.fee)).write hbooks fun a => ?_
    rw [zero_add, zero_add, howed a, owed_config hintents, Pi.single_add, Pi.add_apply, World.credit_state]
    omega
  have hkeeps := forwardTdropFee_keeps (p := p) (hopened.tdropToken.trans htoken) hwrite
  refine ⟨hkeeps.covers, Follows.trans (fun id => ?_) hkeeps.follows⟩
  have := hfollows id
  rwa [Chain.put_circuit, hintents] at this

/-! ## Settlement and failure -/

variable {intentId nullifier : Word}

/-- The splitter that is told a tag ran some calls, maybe none. -/
theorem tagFeeOrigin_eq (intentId : Word) (w : World) :
    ∃ calls, tagFeeOrigin keccak256 intentId p w = Trace.run (play keccak256) w calls :=
  notifyIf_eq _ p.tagFeeOrigin w

theorem settleIntent_ok (h : settleIntent keccak256 m intentId nullifier useZkGPT p w = .ok w') :
    ∃ (c : State) (w1 : World) (calls calls' : List (Msg × OpenCall)),
      (w.state.circuit.intents intentId).submittedAt ≠ 0 ∧ (w.state.circuit.intents intentId).status = .completed
        ∧ c.intents = w.state.circuit.intents ∧ c.intentCount = w.state.circuit.intentCount
        ∧ w1 = Trace.run (play keccak256) (w.write (w.state.put c)) calls ∧ w' = Trace.run (play keccak256)
            (w1.write (w1.state.put (markSettled m intentId nullifier w1.state.circuit))) calls' := by
  rw [settleIntent, onlyRole, guarded_iff, guarded_iff, guarded_iff, guarded_iff, guarded_iff, bind_iff] at h
  obtain ⟨-, -, hfound, hstatus, -, w1, hask, h⟩ := h
  obtain ⟨calls, hrun⟩ := askIf_ok hask
  obtain ⟨calls', hrun'⟩ := tagFeeOrigin_eq (p := p) intentId
    (w1.write (w1.state.put (markSettled m intentId nullifier w1.state.circuit)))
  exact ⟨{ w.state.circuit with usedNullifiers := update w.state.circuit.usedNullifiers nullifier true }, w1, calls,
    calls', hfound, not_not.mp hstatus, rfl, rfl, hrun, (Except.ok.inj h).symm.trans hrun'⟩

theorem markSettled_same (c : State) : (markSettled m intentId nullifier c).intents intentId
    = { c.intents intentId with status := .settled, settledAt := m.timestamp, proofNullifier := nullifier } :=
  update_self ..

theorem markFailed_same (c : State) :
    (markFailed intentId c).intents intentId = { c.intents intentId with status := .failed } :=
  update_self ..

/-- A completed intent becomes settled; its payment stays with the contract. -/
theorem settled_keeps (m : Msg) (nullifier : Word) (hw : Covers (Books keccak256) owed 0 w)
    (hfound : (w.state.circuit.intents intentId).submittedAt ≠ 0)
    (hstatus : (w.state.circuit.intents intentId).status = .completed) :
    Keeps keccak256 w (w.write (w.state.put (markSettled m intentId nullifier w.state.circuit))) := by
  have hamend : Amends (w.state.circuit.intents intentId) { w.state.circuit.intents intentId with
      status := .settled, settledAt := m.timestamp, proofNullifier := nullifier } :=
    ⟨hfound, rfl, rfl, rfl, .inr (.inr (.inl rfl)), fun hf => nomatch hf.symm.trans hstatus⟩
  constructor
  · refine hw.write (hw.books.amend hamend rfl rfl) fun a => ?_
    have hzero : outstanding { w.state.circuit.intents intentId with
        status := .settled, settledAt := m.timestamp, proofNullifier := nullifier } = 0 :=
          outstanding_of_final (.inl rfl)
    have hchange := owed_amend w.state (c := markSettled m intentId nullifier w.state.circuit) rfl a
    rw [hzero, ite_self] at hchange
    omega
  · refine follows_of_move intentId ?_ fun x hx => update_of_ne hx ..
    rw [World.write_state, Chain.put_circuit, markSettled_same, hstatus]
    exact .single .settle

theorem settleIntent_keeps (hw : Covers (Books keccak256) owed 0 w)
    (h : settleIntent keccak256 m intentId nullifier useZkGPT p w = .ok w') : Keeps keccak256 w w' := by
  obtain ⟨c, w1, calls, calls', hfound, hstatus, hintents, hcount, rfl, rfl⟩ := settleIntent_ok h
  have hconfig : Covers (Books keccak256) owed 0 (w.write (w.state.put c)) :=
    hw.write (hw.books.config hintents hcount) fun a => by rw [owed_config hintents]
  have hstands := calls_stand calls hconfig.books
  have hsame : _ = (w.write (w.state.put c)).state.circuit.intents intentId :=
    hstands.completed intentId (by
      show (c.intents intentId).status = .completed
      rw [hintents]
      exact hstatus)
  have hmid := settled_keeps m nullifier (hconfig.run play_covers calls)
    (by rw [hsame]; show (c.intents intentId).submittedAt ≠ 0; rw [hintents]; exact hfound)
    (by rw [hsame]; show (c.intents intentId).status = .completed; rw [hintents]; exact hstatus)
  refine ⟨hmid.covers.run play_covers calls', Follows.trans (fun id => ?_)
    (hmid.follows.trans (calls_stand calls' hmid.covers.books).follows)⟩
  have := hstands.follows id
  rwa [World.write_state, Chain.put_circuit, hintents] at this

theorem failIntent_ok (h : failIntent keccak256 m intentId p w = .ok w') :
    m.holds .relayer = true ∧ (w.state.circuit.intents intentId).submittedAt ≠ 0
      ∧ (0 < (w.state.circuit.intents intentId).payment
          ∧ send (play keccak256) Revert.refundFailed .native p.refund (w.state.circuit.intents intentId).payment
              (w.write (noteRefund intentId (w.state.put (markFailed intentId w.state.circuit)))) = .ok w'
        ∨ (w.state.circuit.intents intentId).payment = 0
          ∧ w' = w.write (w.state.put (markFailed intentId w.state.circuit))) := by
  rw [failIntent, onlyRole, guarded_iff, guarded_iff] at h
  obtain ⟨hrole, hfound, h⟩ := h
  refine ⟨eq_true_of_ne_false hrole, hfound, ?_⟩
  split at h
  · rename_i hpay
    exact .inl ⟨hpay, h⟩
  · rename_i hpay
    exact .inr ⟨by omega, (Except.ok.inj h).symm⟩

/-- **IN ORDER**: a `failIntent` that goes through finds an intent that is not settled, and
    where there is a payment to refund, one not failed before and paid in native value. -/
def FailsOpen (m : Msg) (p : Peers) (intentId : Word) (w : World) : Prop :=
  let i := w.state.circuit.intents intentId
  m.holds .relayer = true → i.submittedAt ≠ 0 →
    (0 < i.payment → p.refund.ok = true ∧ i.payment ≤ w.holdings .native) →
      i.status ≠ .settled ∧ (0 < i.payment → i.status ≠ .failed ∧ w.state.paidIn intentId = .native)

theorem failed_follows (hb : Books keccak256 w.state) (hfound : (w.state.circuit.intents intentId).submittedAt ≠ 0)
    (hopen : (w.state.circuit.intents intentId).status ≠ .settled) :
    Follows w.state (w.state.put (markFailed intentId w.state.circuit)) := by
  refine follows_of_move intentId ?_ fun x hx => update_of_ne hx ..
  rw [Chain.put_circuit, markFailed_same]
  rcases hb.live intentId hfound with hs | hs | hs | hs
  · rw [hs]
    exact .single .failSubmitted
  · rw [hs]
    exact .single .failCompleted
  · exact absurd hs hopen
  · rw [hs]

/-- The refund of a failed intent that was not refunded before. -/
theorem noted_books (intentId : Word) (hb : Books keccak256 s)
    (hfailed : (s.circuit.intents intentId).status = .failed) (hnative : s.paidIn intentId = .native)
    (hnew : ∀ r ∈ s.refunds, r.intentId ≠ intentId) : Books keccak256 (noteRefund intentId s) := by
  refine ⟨hb.drawn, hb.blank, hb.live, fun r hr => ?_, ?_⟩
  · rcases List.mem_append.mp hr with hr | hr
    · have hold := hb.refunded r hr
      exact ⟨hold.failed, hold.inKind, hold.requester, hold.amount⟩
    · obtain rfl := List.mem_singleton.mp hr
      exact ⟨hfailed, hnative.symm, rfl, rfl⟩
  · show ((s.refunds ++ [_]).map Refund.intentId).Nodup
    rw [List.map_append, List.map_singleton, List.nodup_append]
    refine ⟨hb.once, List.nodup_singleton _, fun x hx y hy => ?_⟩
    obtain ⟨r, hr, rfl⟩ := List.mem_map.mp hx
    rw [List.mem_singleton.mp hy]
    exact hnew r hr

theorem failIntent_keeps (hw : Covers (Books keccak256) owed 0 w) (hfails : FailsOpen m p intentId w)
    (h : failIntent keccak256 m intentId p w = .ok w') : Keeps keccak256 w w' := by
  obtain ⟨hrole, hfound, hend⟩ := failIntent_ok h
  have hamend : Amends (w.state.circuit.intents intentId)
      { w.state.circuit.intents intentId with status := .failed } :=
    ⟨hfound, rfl, rfl, rfl, .inr (.inr (.inr rfl)), fun _ => rfl⟩
  have hbooks : Books keccak256 (w.state.put (markFailed intentId w.state.circuit)) :=
    hw.books.amend hamend rfl rfl
  have howed : ∀ a, owed (w.state.put (markFailed intentId w.state.circuit)) a + due w.state a intentId
      = owed w.state a := by
    intro a
    have hzero : outstanding { w.state.circuit.intents intentId with status := .failed } = 0 :=
      outstanding_of_final (.inr rfl)
    have hchange := owed_amend w.state (c := markFailed intentId w.state.circuit) rfl a
    rw [hzero, ite_self] at hchange
    omega
  rcases hend with ⟨hpay, hsend⟩ | ⟨hpay, rfl⟩
  · obtain ⟨hok, hheld, hrun⟩ := send_ok_iff.mp hsend
    obtain ⟨hsettled, hrest⟩ := hfails hrole hfound fun _ => ⟨hok, hheld⟩
    obtain ⟨hfailed, hnative⟩ := hrest hpay
    have hnoted := noted_books intentId hbooks
      (by rw [Chain.put_circuit, markFailed_same]) hnative fun r hr heq => hfailed (by
        rw [← heq]
        exact (hw.books.refunded r hr).failed)
    have hwrite : Covers (Books keccak256) owed
        (0 + Pi.single .native (w.state.circuit.intents intentId).payment)
        (w.write (noteRefund intentId (w.state.put (markFailed intentId w.state.circuit)))) := by
      refine hw.write hnoted fun a => ?_
      have hchange := howed a
      rw [due, hnative, outstanding_of_open (not_or.mpr ⟨hsettled, hfailed⟩)] at hchange
      show owed (w.state.put (markFailed intentId w.state.circuit)) a + _ ≤ _
      rw [zero_add]
      by_cases ha : a = .native
      · subst ha
        rw [if_pos rfl] at hchange
        rw [Pi.single_eq_same]
        omega
      · rw [Pi.single_eq_of_ne ha]
        omega
    refine ⟨hwrite.send play_covers hsend, ?_⟩
    rw [hrun]
    exact (failed_follows hw.books hfound hsettled).trans (calls_stand (w := (World.write _ w).debit _ _)
      p.refund.calls hnoted).follows
  · obtain ⟨hsettled, -⟩ := hfails hrole hfound fun hpos => absurd hpos (by omega)
    refine ⟨hw.write hbooks fun a => ?_, failed_follows hw.books hfound hsettled⟩
    have := howed a
    omega

/-! ## Runs -/

/-- What the run is asked: its `failIntent` calls are in order. -/
def FailsInOrder (w : World) (tx : Tx) : Prop :=
  match tx.call with
  | .failIntent intentId => FailsOpen tx.msg tx.peers intentId w
  | _ => True

instance decidableFailsOpen (m : Msg) (p : Peers) (intentId : Word) (w : World) :
    Decidable (FailsOpen m p intentId w) := by
  delta FailsOpen
  infer_instance

instance decidableFailsInOrder (w : World) (tx : Tx) : Decidable (FailsInOrder w tx) :=
  match tx with
  | ⟨m, .failIntent intentId, p⟩ => decidableFailsOpen m p intentId w
  | ⟨_, .submitPresetIntent .., _⟩ => .isTrue trivial
  | ⟨_, .submitIntent .., _⟩ => .isTrue trivial
  | ⟨_, .submitIntentWithTDROP .., _⟩ => .isTrue trivial
  | ⟨_, .settleIntent .., _⟩ => .isTrue trivial
  | ⟨_, .openCall .., _⟩ => .isTrue trivial

theorem exec_drawn (h : exec keccak256 tx w = .ok w') : ∀ q ∈ w.state.drawn, q ∈ w'.state.drawn := by
  obtain ⟨m, call, p⟩ := tx
  intro q hq
  cases call with
  | submitPresetIntent value presetId gpuTier serviceId inputHash =>
    obtain ⟨head, price, h⟩ := submitPresetIntent_ok h
    rw [submitNative_drawn h]
    exact List.mem_append_left _ hq
  | submitIntent value serviceId inputHash =>
    obtain ⟨head, price, h⟩ := submitIntent_ok h
    rw [submitNative_drawn h]
    exact List.mem_append_left _ hq
  | submitIntentWithTDROP serviceId inputHash =>
    obtain ⟨head, quote, c, s, -, -, -, hopened, rfl⟩ := submitIntentWithTDROP_ok h
    rw [forwardTdropFee_drawn, World.write_state, hopened.drawn]
    exact List.mem_append_left _ hq
  | settleIntent intentId nullifier useZkGPT =>
    obtain ⟨c, w1, calls, calls', -, -, -, -, rfl, rfl⟩ := settleIntent_ok h
    rw [calls_drawn]
    show q ∈ (Trace.run (play keccak256) _ calls).state.drawn
    rw [calls_drawn]
    exact hq
  | failIntent intentId =>
    obtain ⟨-, -, ⟨-, hsend⟩ | ⟨-, rfl⟩⟩ := failIntent_ok h
    · obtain ⟨-, -, rfl⟩ := send_ok_iff.mp hsend
      rw [calls_drawn]
      exact hq
    · exact hq
  | openCall call =>
    rw [(execOpen_ok h).drawn]
    exact hq

theorem step_drawn (w : World) (tx : Tx) : ∀ q ∈ w.state.drawn, q ∈ (step keccak256 w tx).state.drawn := by
  rw [step]
  split
  · rename_i h
    exact exec_drawn h
  · exact fun q hq => hq

theorem run_drawn (w : World) (txs : List Tx) : ∀ q ∈ w.state.drawn, q ∈ (run keccak256 w txs).state.drawn := by
  induction txs generalizing w with
  | nil =>
    exact fun q hq => hq
  | cons tx rest ih =>
    exact fun q hq => ih _ q (step_drawn w tx q hq)

/-- **STEP**: a transaction in order keeps books, holdings and life cycle. -/
theorem step_keeps (hw : Covers (Books keccak256) owed 0 w) (hfails : FailsInOrder w tx)
    (hhash : Set.InjOn keccak256 {q | q ∈ (step keccak256 w tx).state.drawn}) :
    Keeps keccak256 w (step keccak256 w tx) := by
  obtain ⟨m, call, p⟩ := tx
  rw [step] at hhash ⊢
  split at hhash
  · rename_i w' h
    cases call with
    | submitPresetIntent value presetId gpuTier serviceId inputHash =>
      obtain ⟨head, price, h⟩ := submitPresetIntent_ok h
      exact submitNative_keeps hw hhash h
    | submitIntent value serviceId inputHash =>
      obtain ⟨head, price, h⟩ := submitIntent_ok h
      exact submitNative_keeps hw hhash h
    | submitIntentWithTDROP serviceId inputHash =>
      exact submitIntentWithTDROP_keeps hw hhash h
    | settleIntent intentId nullifier useZkGPT =>
      exact settleIntent_keeps hw h
    | failIntent intentId =>
      exact failIntent_keeps hw hfails h
    | openCall call =>
      exact ⟨(execOpen_ok h).covers hw, ((execOpen_ok h).keeps hw.books).2.follows⟩
  · exact ⟨hw, .refl _⟩

/-- **RUN**: and so does a run of them. -/
theorem run_keeps {txs : List Tx} (hw : Covers (Books keccak256) owed 0 w)
    (hfails : Trace.Along (step keccak256) FailsInOrder w txs)
    (hhash : Set.InjOn keccak256 {q | q ∈ (run keccak256 w txs).state.drawn}) :
    Keeps keccak256 w (run keccak256 w txs) := by
  induction txs generalizing w with
  | nil =>
    exact ⟨hw, .refl _⟩
  | cons tx rest ih =>
    have hstep := step_keeps hw hfails.1 (hhash.mono (run_drawn (step keccak256 w tx) rest))
    have hrest := ih hstep.covers hfails.2 hhash
    exact ⟨hrest.covers, hstep.follows.trans hrest.follows⟩

theorem start_covers (revenueSplitter zkVerifier : Address) (holdings : Asset → Nat) :
    Covers (Books keccak256) owed 0 (start revenueSplitter zkVerifier holdings) := by
  have hstamp : ∀ id : Word, ¬ noIntent.submittedAt ≠ 0 := fun _ h => h rfl
  refine ⟨⟨.start _ hstamp, fun _ _ => rfl, fun _ h => absurd rfl h, fun r hr => ?_, List.nodup_nil⟩, fun a => ?_⟩
  · exact absurd hr List.not_mem_nil
  · have hdue : ∑ id : Word, due (start revenueSplitter zkVerifier holdings).state a id = 0 := by
      refine Finset.sum_eq_zero fun id _ => ?_
      show (if Asset.native = a then outstanding noIntent else 0) = 0
      split
      · rfl
      · rfl
    have hallow : allowances (start revenueSplitter zkVerifier holdings).state a = 0 := by
      cases a with
      | native => rfl
      | erc20 token => exact Finset.sum_eq_zero fun _ _ => rfl
    rw [owed, hdue, hallow]
    exact Nat.zero_le _

/-- What holds of the circuit between transactions. -/
structure InOrder (w : World) : Prop where
  solvent : ∀ a, ∑ id : Word, due w.state a id ≤ w.holdings a
  once : (w.state.refunds.map Refund.intentId).Nodup
  inKind : ∀ r ∈ w.state.refunds, r.asset = w.state.paidIn r.intentId
    ∧ r.requester = (w.state.circuit.intents r.intentId).requester
    ∧ r.amount = (w.state.circuit.intents r.intentId).payment

theorem Covers.inOrder (h : Covers (Books keccak256) owed 0 w) : InOrder w := by
  refine ⟨fun a => ?_, h.books.once, fun r hr => ?_⟩
  · have := h.enough a
    rw [owed] at this
    omega
  · have hrefunded := h.books.refunded r hr
    exact ⟨hrefunded.inKind, hrefunded.requester, hrefunded.amount⟩

/-- **THE LIFE OF AN INTENT**: as long as failures are in order, the holdings cover every
    open intent, refunds are paid once and in kind, and between any two points of a run
    each intent moves along its life cycle and stays where it was final. -/
theorem life_cycle (revenueSplitter zkVerifier : Address) (holdings : Asset → Nat) (txs : List Tx)
    (hhash : Set.InjOn keccak256 {q | q ∈ (run keccak256 (start revenueSplitter zkVerifier holdings) txs).state.drawn})
    (hfails : Trace.Along (step keccak256) FailsInOrder (start revenueSplitter zkVerifier holdings) txs)
    (before between after : List Tx) (hsplit : txs = before ++ (between ++ after)) :
    let w := run keccak256 (start revenueSplitter zkVerifier holdings) before
    let w' := run keccak256 w between
    InOrder w ∧ ∀ id,
      ReflTransGen Moves (w.state.circuit.intents id).status (w'.state.circuit.intents id).status
      ∧ ((w.state.circuit.intents id).status = .settled ∨ (w.state.circuit.intents id).status = .failed →
          (w'.state.circuit.intents id).status = (w.state.circuit.intents id).status) := by
  intro w w'
  subst hsplit
  obtain ⟨hbefore, hrest⟩ := Trace.along_append.mp hfails
  obtain ⟨hbetween, -⟩ := Trace.along_append.mp hrest
  rw [run, Trace.run_append, Trace.run_append] at hhash
  have hmid : Set.InjOn keccak256 {q | q ∈ w'.state.drawn} := hhash.mono (run_drawn w' after)
  have hstart : Set.InjOn keccak256 {q | q ∈ w.state.drawn} := hmid.mono (run_drawn w between)
  have hw := run_keeps (start_covers revenueSplitter zkVerifier holdings) hbefore hstart
  have hpath := (run_keeps hw.covers hbetween hmid).follows
  exact ⟨Covers.inOrder hw.covers, fun id => ⟨hpath id, fun hfinal => eq_of_final (hpath id) hfinal⟩⟩

/-! ## A run with two refunds -/

def sampleService : Word := 0x19026907d56d555d74ee86130db6d28692e7446b1bcf7745ac9e0e4cf15a55df

def aliceIntent : Word := 0x4deecd335c0c7cc0ffefe4f804a38b3032d8f2d4f5a21f933e43b39cba475121

def bobIntent : Word := 0x43f81486b61985da8959202cc54a09027a79d07333c000a122dc37aa3403cb5a

def sampleCircuitId : Word := 0x3f6814bf63dc574a4295fe3871010eedc2a6bb40a184c9e4274f0a19fe40a5ba

/-- Keccak-256 on the strings the run hashes; zero elsewhere. -/
def sampleKeccak (message : List UInt8) : Word :=
  (([("THETA_INFERENCE_CIRCUIT".toUTF8.toList, sampleCircuitId),
    (wordBytes sampleCircuitId ++ [0] ++ "llama-3.1-70b".toUTF8.toList ++ bigEndian 32 0, sampleService),
    (wordBytes sampleCircuitId ++ addressBytes 0xA11CE ++ wordBytes sampleService ++ bigEndian 32 1
      ++ bigEndian 32 0, aliceIntent),
    (wordBytes sampleCircuitId ++ addressBytes 0xB0B ++ wordBytes sampleService ++ bigEndian 32 1
      ++ bigEndian 32 1, bobIntent)] : List (List UInt8 × Word)).lookup message).getD 0

def sampleReply : Reply where
  ok := true
  calls := []

def samplePeers : Peers where
  depositFee := sampleReply
  plainFee := sampleReply
  transferFrom := true
  approve := true
  receiveERC20Fee := sampleReply
  verifyProof := sampleReply
  tagFeeOrigin := sampleReply
  refund := sampleReply

theorem sampleTime_positive : 0 < 1700000000 := by decide

theorem sampleTime_inRange : 1700000000 < 2 ^ 64 := by decide

/-- The admin holds every role, the others none. -/
def sampleTx (sender : Address) (call : Call) : Tx where
  msg := {
    sender := sender
    timestamp := 1700000000
    blockNumber := 1
    holds := fun _ => sender == 0xAD
    positive := sampleTime_positive
    inRange := sampleTime_inRange }
  call := call
  peers := samplePeers

/-- Alice and Bob each pay 10000, at a price of 1000. -/
def sampleSubmits : List Tx := [
  sampleTx 0xAD (.openCall (.registerService .llmInference "llama-3.1-70b".toUTF8.toList 1000 0)),
  sampleTx 0xA11CE (.submitIntent 10000 sampleService 7),
  sampleTx 0xB0B (.submitIntent 10000 sampleService 8)]

/-- Alice's intent fails; then Bob's completes and settles. -/
def sampleBefore : List Tx := sampleSubmits ++ [sampleTx 0xAD (.failIntent aliceIntent)]

def sampleBetween : List Tx := [
  sampleTx 0xAD (.openCall (.completeIntent bobIntent 5 6 120)),
  sampleTx 0xAD (.settleIntent bobIntent 9 false)]

def sampleRun (txs : List Tx) : World := run sampleKeccak (start 0 0 fun _ => 0) txs

theorem life_cycle_sample : InOrder (sampleRun sampleBefore) ∧ ReflTransGen Moves .submitted .settled
    ∧ ((run sampleKeccak (sampleRun sampleBefore) sampleBetween).state.circuit.intents bobIntent).status = .settled
    ∧ ((run sampleKeccak (sampleRun sampleBefore) sampleBetween).state.circuit.intents aliceIntent).status
      = .failed := by
  have hhash : ∀ p ∈ (sampleRun (sampleBefore ++ sampleBetween)).state.drawn,
      ∀ q ∈ (sampleRun (sampleBefore ++ sampleBetween)).state.drawn, sampleKeccak p = sampleKeccak q → p = q := by
    decide +kernel
  have hfails : Trace.Along (step sampleKeccak) FailsInOrder (start 0 0 fun _ => 0)
    (sampleBefore ++ sampleBetween) := by
    decide +kernel
  have hstatus : ((sampleRun sampleBefore).state.circuit.intents bobIntent).status = .submitted
      ∧ ((sampleRun sampleBefore).state.circuit.intents aliceIntent).status = .failed
      ∧ ((run sampleKeccak (sampleRun sampleBefore) sampleBetween).state.circuit.intents bobIntent).status
        = .settled := by
    decide +kernel
  obtain ⟨hsubmitted, hfailed, hsettled⟩ := hstatus
  obtain ⟨hinOrder, hlife⟩ := life_cycle 0 0 (fun _ => 0) (sampleBefore ++ sampleBetween)
    (fun p hp q hq h => hhash p hp q hq h) hfails sampleBefore sampleBetween [] (by rw [List.append_nil])
  have hmoves : ReflTransGen Moves ((sampleRun sampleBefore).state.circuit.intents bobIntent).status
      ((run sampleKeccak (sampleRun sampleBefore) sampleBetween).state.circuit.intents bobIntent).status :=
        (hlife bobIntent).1
  rw [hsubmitted, hsettled] at hmoves
  exact ⟨hinOrder, hmoves, hsettled, ((hlife aliceIntent).2 (.inr hfailed)).trans hfailed⟩

/-- `failIntent` refunds Alice twice: the second time from Bob's payment. -/
theorem failed_twice :
    let w := sampleRun (sampleSubmits ++ [
      sampleTx 0xAD (.failIntent aliceIntent),
      sampleTx 0xAD (.failIntent aliceIntent)])
    Set.InjOn sampleKeccak {q | q ∈ w.state.drawn} ∧ ¬ (w.state.refunds.map Refund.intentId).Nodup
      ∧ w.holdings .native < due w.state .native bobIntent ∧ ¬ InOrder w := by
  intro w
  have hhash : ∀ p ∈ w.state.drawn, ∀ q ∈ w.state.drawn, sampleKeccak p = sampleKeccak q → p = q := by
    decide +kernel
  have hrefunds : ¬ (w.state.refunds.map Refund.intentId).Nodup := by decide +kernel
  have hdue : w.holdings .native < due w.state .native bobIntent := by decide +kernel
  exact ⟨fun p hp q hq h => hhash p hp q hq h, hrefunds, hdue, fun h => hrefunds h.once⟩

end ThetaLife
