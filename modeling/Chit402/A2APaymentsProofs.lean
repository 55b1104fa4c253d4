import Chit402.A2ABooksProofs

/-! # Payments out of bids, channels and swarms

    The guarded calls that pay.  Each first takes what it pays out of the
    records; what is then paid is `Backed`: the balance covers it, and the
    source was given it.

    Three calls need more: `settleBid` and `cancelBid` pay a bid in native
    value whatever its token, and `dissolveSwarm` pays whatever the phase. -/

namespace A2APayments

open ExceptFlow Solidity Custody A2ACircuit A2ABooks Function Finset

variable {crypto : Crypto} {m : Msg} {p : Peers} {w w' : World} {src : Source}

/-! ## Backed payments -/

/-- `src` was given `n` more in native value than it was charged and is due. -/
def Room (s : Chain) (src : Source) (n : Nat) : Prop :=
  s.paid src .native + due s.circuit src .native + n ≤ s.given src .native

variable {agent : Address} {pending : Asset → Nat} {s : Chain} {amount fee n : Nat} {ch : PaymentChannel} {r : Reply}
  {e : Revert} {c : State} {sw : Swarm} {bidId channelId id nullifier resultHash swarmId : Word}

theorem Room.stands {s' : Chain} (hroom : Room s src n) (h : Stands s s') : Room s' src n := by
  rw [Room, h.paid, h.given, h.money.due]
  exact hroom

/-- **BACKED**: the balance covers `n` beyond what is owed, and `src` may be charged it. -/
structure Backed (crypto : Crypto) (src : Source) (n : Nat) (w : World) : Prop where
  covers : Covers (Books crypto) owed (Pi.single .native n) w
  room : Room w.state src n

theorem Backed.of_eq {k : Nat} (h : Backed crypto src n w) (hn : n = k) : Backed crypto src k w := hn ▸ h

theorem covers_drop (h : Covers (Books crypto) owed pending w) : Covers (Books crypto) owed 0 w :=
  h.mono fun _ => Nat.zero_le _

/-- Charging a source what it has room for. -/
theorem notePaid_books (h : Books crypto s) (hroom : Room s src (n + amount)) :
    Books crypto (notePaid src .native amount s) ∧ Room (notePaid src .native amount s) src n := by
  have hpaid : (notePaid src .native amount s).paid src .native = s.paid src .native + amount := by
    show update s.paid src _ src .native = _
    rw [update_self, update_self]
  rw [Room] at hroom
  constructor
  · refine ⟨h.registry.same (.keep rfl) rfl rfl rfl, fun x a => ?_⟩
    show (notePaid src .native amount s).paid x a + due s.circuit x a ≤ s.given x a
    have hwithin := h.within x a
    by_cases hx : x = src
    · subst hx
      by_cases ha : a = .native
      · subst ha
        omega
      · show update s.paid x _ x a + _ ≤ _
        rw [update_self, update_of_ne ha]
        exact hwithin
    · show update s.paid src _ x a + _ ≤ _
      rw [update_of_ne hx]
      exact hwithin
  · show (notePaid src .native amount s).paid src .native + due s.circuit src .native + n ≤ s.given src .native
    omega

theorem owed_notePaid (a : Asset) (amount : Nat) (s : Chain) : owed (notePaid src a amount s) = owed s := by
  funext b
  cases b with
  | native => rfl
  | erc20 token => rfl

theorem Backed.note (h : Backed crypto src (n + amount) w) :
    Covers (Books crypto) owed (Pi.single .native n + Pi.single .native amount)
        (w.write (notePaid src .native amount w.state)) ∧ Room (notePaid src .native amount w.state) src n := by
  obtain ⟨hbooks, hroom⟩ := notePaid_books h.covers.books h.room
  refine ⟨h.covers.write hbooks fun a => ?_, hroom⟩
  rw [owed_notePaid, Pi.single_add]

theorem Backed.payFrom (h : Backed crypto src (n + amount) w) (hpay : payFrom src e r amount w = .ok w') :
    Backed crypto src n w' := by
  obtain ⟨hcovers, hroom⟩ := h.note
  refine ⟨hcovers.send play_covers hpay, ?_⟩
  obtain ⟨-, -, rfl⟩ := send_ok_iff.mp hpay
  exact hroom.stands (calls_stand ((w.write (notePaid src .native amount w.state)).debit .native amount) r.calls)

theorem Backed.payIf (h : Backed crypto src (n + amount) w) (hpay : payIf src e r amount w = .ok w') :
    Backed crypto src n w' := by
  rw [A2ACircuit.payIf] at hpay
  split at hpay
  · exact h.payFrom hpay
  · rename_i hzero
    cases hpay
    obtain rfl : amount = 0 := by omega
    exact h

theorem forwardFee_stands (h : forwardFee p fee w = .ok w') : Stands w.state w'.state := by
  rw [forwardFee] at h
  split at h
  · cases h
    exact .refl _
  · obtain ⟨-, calls, rfl⟩ := forward_ok h
    exact calls_stand (w.debit .native fee) calls

theorem forwardFee_covers (hw : Covers (Books crypto) owed (pending + Pi.single .native fee) w)
    (h : forwardFee p fee w = .ok w') : Covers (Books crypto) owed pending w' := by
  rw [forwardFee] at h
  split at h
  · cases h
    exact hw.drop
  · exact hw.forward play_covers h

theorem Backed.config {n : Nat} {c : State} (h : Backed crypto src n w) (hc : SameMoney w.state.circuit c)
    (hstakes : stakes c = stakes w.state.circuit) : Backed crypto src n (w.write (w.state.put c)) := by
  have hharmless : Harmless w (w.write (w.state.put c)) := .config hc fun a => by rw [hstakes]
  exact ⟨hharmless.covers h.covers, h.room.stands hharmless.stands⟩

theorem Backed.chargeFee (h : Backed crypto src (n + fee) w) (hcharge : chargeFee p src fee w = .ok w') :
    Backed crypto src n w' := by
  rw [A2ACircuit.chargeFee] at hcharge
  split at hcharge
  · obtain ⟨total, -, hcharge⟩ := bind_iff.mp hcharge
    have hcount := h.config (c := { w.state.circuit with totalTaskFees := total }) (.keep rfl) rfl
    obtain ⟨hcovers, hroom⟩ := hcount.note
    exact ⟨forwardFee_covers hcovers hcharge, hroom.stands (forwardFee_stands hcharge)⟩
  · cases hcharge
    obtain rfl : fee = 0 := by omega
    exact h

/-- The verifier's calls back. -/
theorem verifyProof_covers (hw : Covers (Books crypto) owed pending w) (h : verifyProof p w = .ok w') :
    Covers (Books crypto) owed pending w' ∧ Stands w.state w'.state := by
  rw [verifyProof] at h
  split at h
  · refine ⟨hw.ask play_covers h, ?_⟩
    obtain ⟨-, rfl⟩ := ask_ok_iff.mp h
    exact calls_stand w p.verifyProof.calls
  · cases h
    exact ⟨hw, .refl _⟩

theorem useNullifier_covers (nullifier : Word) (hw : Covers (Books crypto) owed pending w) :
    Covers (Books crypto) owed pending (w.write (w.state.put (useNullifier nullifier w.state.circuit))) := by
  have hsame : SameMoney w.state.circuit (useNullifier nullifier w.state.circuit) := .keep rfl
  exact (Harmless.config hsame fun _ => Nat.le_refl _).covers hw

/-- **RELEASED**: the records owe `src` by `n` less in native value, and nobody more. -/
structure Released (s : Chain) (c : State) (src : Source) (n : Nat) : Prop where
  less : due c src + Pi.single .native n = due s.circuit src
  others : ∀ x, x ≠ src → due c x = due s.circuit x
  stakes : stakes c = stakes s.circuit

theorem Released.backed (h : Released w.state c src n) (hw : Covers (Books crypto) owed 0 w)
    (hregistry : Registry crypto (w.state.put c)) : Backed crypto src n (w.write (w.state.put c)) := by
  have hless : ∀ a, due c src a + (Pi.single .native n : Asset → Nat) a = due w.state.circuit src a :=
    fun a => congrFun h.less a
  refine ⟨hw.write ⟨hregistry, fun x a => ?_⟩ fun a => ?_, ?_⟩
  · have hwithin := hw.books.within x a
    show w.state.paid x a + due c x a ≤ w.state.given x a
    by_cases hx : x = src
    · subst hx
      have := hless a
      omega
    · rw [h.others x hx]
      exact hwithin
  · have hchange := dues_change src h.others a
    have := hless a
    rw [owed_put, owed, h.stakes]
    show _ ≤ _ + 0
    omega
  · have hwithin := hw.books.within src .native
    have := hless .native
    rw [Pi.single_eq_same] at this
    show w.state.paid src .native + due c src .native + n ≤ w.state.given src .native
    omega

/-! ## Records that release -/

/-- Only the bid's record changes. -/
theorem released_bid {b : Bid} (hheld : Held (s.circuit.bids id)) (hnative : (s.circuit.bids id).paymentToken = 0)
    (hclosed : ¬ Held b) (hclose : A2ACircuit.closeBid id b s.circuit = .ok c) :
    Released s c (.bid, id) (s.circuit.bids id).escrowAmount := by
  obtain ⟨-, -, rfl⟩ := closeBid_ok hclose
  refine ⟨?_, due_update_bid rfl rfl rfl, rfl⟩
  have hnew : openEscrow b = 0 := if_neg hclosed
  have hold : openEscrow (s.circuit.bids id) = (s.circuit.bids id).escrowAmount := if_pos hheld
  show (Pi.single (assetOf (update s.circuit.bids id b id).paymentToken)
      (openEscrow (update s.circuit.bids id b id)) : Asset → Nat) + _
    = Pi.single (assetOf (s.circuit.bids id).paymentToken) (openEscrow (s.circuit.bids id))
  rw [update_self, hnew, hold, hnative, Pi.single_zero, zero_add]
  rfl

theorem released_channel (hleft : channelLeft ch + n = channelLeft (s.circuit.channels id)) :
    Released s (setChannel id ch s.circuit) (.channel, id) n := by
  refine ⟨?_, due_update_channel rfl rfl rfl, rfl⟩
  show (Pi.single .native (channelLeft (update s.circuit.channels id ch id)) : Asset → Nat) + _
    = Pi.single .native (channelLeft (s.circuit.channels id))
  rw [update_self, ← hleft, Pi.single_add]

theorem released_swarm (hleft : swarmLeft sw + n = swarmLeft (s.circuit.swarms id)) :
    Released s (setSwarm id sw s.circuit) (.swarm, id) n := by
  refine ⟨?_, due_update_swarm rfl rfl rfl, rfl⟩
  show (Pi.single .native (swarmLeft (update s.circuit.swarms id sw id)) : Asset → Nat) + _
    = Pi.single .native (swarmLeft (s.circuit.swarms id))
  rw [update_self, ← hleft, Pi.single_add]

/-! ## Bids that are paid -/

theorem creditAgent_ok {c' : State} (h : creditAgent agent c = .ok c') : SameMoney c c' ∧ stakes c' = stakes c := by
  rw [creditAgent, bind_iff] at h
  obtain ⟨tasksCompleted, -, h⟩ := h
  obtain ⟨next, -, h⟩ := bind_iff.mp h
  cases h
  exact ⟨.keep rfl, rfl⟩

/-- **SETTLED**: provider, requester and fee share the escrow of a bid in native value. -/
theorem payBid_covers {result : Bid → Bid} (hw : Covers (Books crypto) owed 0 w)
    (hfound : (w.state.circuit.bids bidId).createdAt ≠ 0) (hstatus : (w.state.circuit.bids bidId).status = .accepted)
    (hnative : (w.state.circuit.bids bidId).paymentToken = 0) (h : payBid bidId result p w = .ok w')
    (hstamp : ∀ b, (result b).createdAt = b.createdAt) (hescrow : ∀ b, (result b).escrowAmount = b.escrowAmount) :
    Covers (Books crypto) owed 0 w' := by
  rw [payBid, bind_iff] at h
  obtain ⟨scaled, -, h⟩ := h
  obtain ⟨payout, hpayout, h⟩ := bind_iff.mp h
  obtain ⟨hfee, rfl⟩ := subU_ok_iff.mp hpayout
  obtain ⟨refund, hrefund, h⟩ := bind_iff.mp h
  obtain ⟨hprice, rfl⟩ := subU_ok_iff.mp hrefund
  obtain ⟨c, hclose, h⟩ := bind_iff.mp h
  obtain ⟨totalSettled, -, h⟩ := bind_iff.mp h
  obtain ⟨w1, hpay1, h⟩ := bind_iff.mp h
  obtain ⟨w2, hpay2, h⟩ := bind_iff.mp h
  obtain ⟨w3, hpay3, h⟩ := bind_iff.mp h
  obtain ⟨c', hcredit, h⟩ := bind_iff.mp h
  obtain ⟨relayed, -, h⟩ := bind_iff.mp h
  cases h
  have hheld : Held (w.state.circuit.bids bidId) := .inr hstatus
  have hclosed : ¬ Held { result (w.state.circuit.bids bidId) with status := .completed } := by
    rintro (h | h)
    · cases h
    · cases h
  have hbacked := (released_bid hheld hnative hclosed hclose).backed hw
    (hw.books.registry.closeBid (b := { result (w.state.circuit.bids bidId) with status := .completed }) hfound hheld
      (hstamp _) (hescrow _) hclosed hclose)
  have hcount := hbacked.config (c := { c with totalSettled := totalSettled }) (.keep rfl) rfl
  have hsplit : (w.state.circuit.bids bidId).escrowAmount
      = 0 + scaled / bpsDenom + ((w.state.circuit.bids bidId).escrowAmount
          - (w.state.circuit.bids bidId).acceptedPrice)
        + ((w.state.circuit.bids bidId).acceptedPrice - scaled / bpsDenom) := by
    omega
  rw [hsplit] at hcount
  have hpaid := ((hcount.payIf hpay1).payIf hpay2).chargeFee hpay3
  obtain ⟨hsame, hstakes⟩ := creditAgent_ok hcredit
  exact covers_drop (hpaid.config (c := { c' with totalMessagesRelayed := relayed })
    (hsame.trans (.keep rfl)) hstakes).covers

/-- A `settleBid` that goes through is of a bid in native value. -/
def SettlesNative (m : Msg) (bidId : Word) (w : World) : Prop :=
  m.holds .relayer = true → (w.state.circuit.bids bidId).status = .accepted →
    (w.state.circuit.bids bidId).paymentToken = 0

theorem settleBid_covers (hw : Covers (Books crypto) owed 0 w) (horder : SettlesNative m bidId w)
    (h : settleBid m bidId resultHash nullifier p w = .ok w') : Covers (Books crypto) owed 0 w' := by
  rw [settleBid, onlyRole, guarded_iff, guarded_iff, guarded_iff, guarded_iff, guarded_iff, bind_iff] at h
  obtain ⟨hrole, -, hfound, hstatus, -, w1, hverify, h⟩ := h
  have hstatus := not_not.mp hstatus
  have hnative := horder (Bool.eq_true_of_not_eq_false hrole) hstatus
  obtain ⟨hw1, hstands⟩ := verifyProof_covers (useNullifier_covers nullifier hw) hverify
  -- the verifier's calls back leave an accepted bid alone
  have hsame : w1.state.circuit.bids bidId = w.state.circuit.bids bidId :=
    (hstands.money.bids bidId).accepted hstatus
  refine payBid_covers hw1 ?_ ?_ ?_ h (fun _ => rfl) fun _ => rfl
  · rw [hsame]
    exact hfound
  · rw [hsame]
    exact hstatus
  · rw [hsame]
    exact hnative

theorem settleBidFairExchange_covers {r s : Word} {v : Nat} (hw : Covers (Books crypto) owed 0 w)
    (h : settleBidFairExchange crypto bidId resultHash v r s p w = .ok w') : Covers (Books crypto) owed 0 w' := by
  rw [settleBidFairExchange, guarded_iff, guarded_iff, guarded_iff, guarded_iff, guarded_iff, guarded_iff] at h
  obtain ⟨-, -, hfound, hstatus, hnative, -, h⟩ := h
  exact payBid_covers hw hfound (not_not.mp hstatus) (not_not.mp hnative) h (fun _ => rfl) fun _ => rfl

/-- And a `cancelBid`. -/
def CancelsNative (m : Msg) (bidId : Word) (w : World) : Prop :=
  m.sender = (w.state.circuit.bids bidId).requester → (w.state.circuit.bids bidId).status = .open →
    (w.state.circuit.bids bidId).paymentToken = 0

theorem cancelBid_covers (hw : Covers (Books crypto) owed 0 w) (horder : CancelsNative m bidId w)
    (h : cancelBid m bidId p w = .ok w') : Covers (Books crypto) owed 0 w' := by
  rw [cancelBid, guarded_iff, guarded_iff, guarded_iff, bind_iff] at h
  obtain ⟨hfound, hrequester, hopen, c, hclose, h⟩ := h
  have hnative := horder (not_not.mp hrequester) (not_not.mp hopen)
  have hheld : Held (w.state.circuit.bids bidId) := .inl (not_not.mp hopen)
  have hclosed : ¬ Held { w.state.circuit.bids bidId with status := .cancelled } := by
    rintro (h | h)
    · cases h
    · cases h
  have hbacked := (released_bid hheld hnative hclosed hclose).backed hw
    (hw.books.registry.closeBid (b := { w.state.circuit.bids bidId with status := .cancelled }) hfound hheld
      rfl rfl hclosed hclose)
  exact covers_drop ((hbacked.of_eq (Nat.zero_add _).symm).payFrom h).covers

/-! ## Channels that are paid -/

theorem channelLeft_spendTo {spent : Nat} (hactive : ch.active = true) :
    channelLeft (ch.spendTo spent) = ch.deposit - spent := if_pos hactive

theorem channelLeft_close (ch : PaymentChannel) : channelLeft ch.close = 0 := if_neg Bool.false_ne_true

theorem claimChannel_covers (hw : Covers (Books crypto) owed 0 w)
    (h : claimChannel m channelId amount nullifier p w = .ok w') : Covers (Books crypto) owed 0 w' := by
  rw [claimChannel, guarded_iff, guarded_iff, guarded_iff, guarded_iff, guarded_iff, bind_iff] at h
  obtain ⟨-, hfound, hactive, -, -, wanted, hwanted, h⟩ := h
  obtain ⟨-, rfl⟩ := addU_ok_iff.mp hwanted
  rw [guarded_iff, guarded_iff, bind_iff] at h
  obtain ⟨henough, -, w1, hverify, h⟩ := h
  obtain ⟨hw1, hstands⟩ := verifyProof_covers (useNullifier_covers nullifier hw) hverify
  have hsame : w1.state.circuit.channels = w.state.circuit.channels := hstands.money.channels
  rw [← hsame] at hfound hactive henough
  rw [payClaim, bind_iff] at h
  obtain ⟨spent, hspent, h⟩ := h
  obtain ⟨-, rfl⟩ := addU_ok_iff.mp hspent
  obtain ⟨scaled, -, h⟩ := bind_iff.mp h
  obtain ⟨payout, hpayout, h⟩ := bind_iff.mp h
  obtain ⟨hfee, rfl⟩ := subU_ok_iff.mp hpayout
  obtain ⟨w2, hpay2, h⟩ := bind_iff.mp h
  obtain ⟨w3, hpay3, h⟩ := bind_iff.mp h
  obtain ⟨relayed, -, h⟩ := bind_iff.mp h
  cases h
  have hactive := not_not.mp hactive
  have hleft : channelLeft ((w1.state.circuit.channels channelId).spendTo
      ((w1.state.circuit.channels channelId).spent + amount)) + amount
      = channelLeft (w1.state.circuit.channels channelId) := by
    rw [channelLeft_spendTo hactive, channelLeft, if_pos hactive]
    omega
  have hbacked := (released_channel hleft).backed hw1 (hw1.books.registry.amendChannel hfound rfl)
  have hsplit : Backed crypto _ (0 + scaled / bpsDenom + (amount - scaled / bpsDenom)) _ := hbacked.of_eq (by omega)
  have hpaid := (hsplit.payFrom hpay2).chargeFee hpay3
  exact covers_drop (hpaid.config (c := { w3.state.circuit with totalMessagesRelayed := relayed })
    (.keep rfl) rfl).covers

theorem closeChannel_covers (hw : Covers (Books crypto) owed 0 w) (h : closeChannel m channelId p w = .ok w') :
    Covers (Books crypto) owed 0 w' := by
  rw [closeChannel, guarded_iff, guarded_iff, guarded_iff, bind_iff] at h
  obtain ⟨hfound, hactive, -, refund, hrefund, h⟩ := h
  obtain ⟨hle, rfl⟩ := subU_ok_iff.mp hrefund
  have hleft : channelLeft (w.state.circuit.channels channelId).close
      + ((w.state.circuit.channels channelId).deposit - (w.state.circuit.channels channelId).spent)
      = channelLeft (w.state.circuit.channels channelId) := by
    rw [channelLeft_close, channelLeft, if_pos (not_not.mp hactive), Nat.zero_add]
  have hbacked := (released_channel hleft).backed hw (hw.books.registry.amendChannel hfound rfl)
  exact covers_drop ((hbacked.of_eq (Nat.zero_add _).symm).payIf h).covers

/-! ## Swarms that are paid -/

theorem swarmLeft_settleTo {settled : Nat} (hopen : sw.phase ≠ .dissolved) :
    swarmLeft (sw.settleTo settled) = sw.escrowPool - settled := by
  refine if_neg ?_
  show (if sw.phase = .active then SwarmPhase.settling else sw.phase) ≠ .dissolved
  split
  · exact nofun
  · exact hopen

theorem settleSwarmAgent_covers (hw : Covers (Books crypto) owed 0 w)
    (h : settleSwarmAgent m swarmId agent amount nullifier p w = .ok w') : Covers (Books crypto) owed 0 w' := by
  rw [settleSwarmAgent, onlyRole, guarded_iff, guarded_iff, guarded_iff,
    guarded_iff, guarded_iff, guarded_iff, bind_iff] at h
  obtain ⟨-, -, hfound, hphase, -, -, wanted, hwanted, h⟩ := h
  obtain ⟨-, rfl⟩ := addU_ok_iff.mp hwanted
  rw [guarded_iff, bind_iff] at h
  obtain ⟨henough, w1, hverify, h⟩ := h
  obtain ⟨hw1, hstands⟩ := verifyProof_covers (useNullifier_covers nullifier hw) hverify
  -- the verifier's calls back add members at most
  obtain ⟨hformed, hpool, hsettled, hdissolved⟩ := (hstands.money.swarms swarmId).left
  have hopen : (w.state.circuit.swarms swarmId).phase ≠ .dissolved := by
    intro hd
    rw [hd] at hphase
    exact hphase ⟨nofun, nofun⟩
  have hopen1 : (w1.state.circuit.swarms swarmId).phase ≠ .dissolved := fun hd => hopen (hdissolved.mp hd)
  have hfound1 : (w1.state.circuit.swarms swarmId).formedAt ≠ 0 := fun h0 => hfound (hformed ▸ h0)
  have henough1 : (w1.state.circuit.swarms swarmId).settledAmount + amount
      ≤ (w1.state.circuit.swarms swarmId).escrowPool := by
    rw [hpool, hsettled]
    exact Nat.not_lt.mp henough
  rw [payAgent, bind_iff] at h
  obtain ⟨scaled, -, h⟩ := h
  obtain ⟨payout, hpayout, h⟩ := bind_iff.mp h
  obtain ⟨hfee, rfl⟩ := subU_ok_iff.mp hpayout
  obtain ⟨settledAmount, hadd, h⟩ := bind_iff.mp h
  obtain ⟨-, rfl⟩ := addU_ok_iff.mp hadd
  obtain ⟨w2, hpay2, h⟩ := bind_iff.mp h
  obtain ⟨w3, hpay3, h⟩ := bind_iff.mp h
  obtain ⟨c, hcredit, h⟩ := bind_iff.mp h
  obtain ⟨settlements, -, h⟩ := bind_iff.mp h
  obtain ⟨totalSettled, -, h⟩ := bind_iff.mp h
  cases h
  have hleft : swarmLeft ((w1.state.circuit.swarms swarmId).settleTo
      ((w1.state.circuit.swarms swarmId).settledAmount + amount)) + amount
      = swarmLeft (w1.state.circuit.swarms swarmId) := by
    rw [swarmLeft_settleTo hopen1, swarmLeft, if_neg hopen1]
    omega
  have hbacked := (released_swarm hleft).backed hw1 (hw1.books.registry.amendSwarm hfound1 rfl)
  have hsplit : Backed crypto _ (0 + scaled / bpsDenom + (amount - scaled / bpsDenom)) _ := hbacked.of_eq (by omega)
  have hpaid := (hsplit.payIf hpay2).chargeFee hpay3
  obtain ⟨hsame, hstakes⟩ := creditAgent_ok hcredit
  exact covers_drop (hpaid.config (c := { c with totalSwarmSettlements := settlements, totalSettled := totalSettled })
    (hsame.trans (.keep rfl)) hstakes).covers

/-- A swarm not dissolved yet, or with nothing left to pay. -/
def Unrefunded (swarmId : Word) (w : World) : Prop :=
  (w.state.circuit.swarms swarmId).phase ≠ .dissolved
    ∨ (w.state.circuit.swarms swarmId).escrowPool ≤ (w.state.circuit.swarms swarmId).settledAmount

theorem swarmLeft_dissolve (now : Nat) (sw : Swarm) : swarmLeft (sw.dissolve now) = 0 := if_pos rfl

/-- The part that both dissolutions share: what the swarm has left is released. -/
theorem dissolve_backed (now : Nat) (hw : Covers (Books crypto) owed 0 w)
    (hfound : (w.state.circuit.swarms swarmId).formedAt ≠ 0) (hopen : Unrefunded swarmId w) :
    Backed crypto (.swarm, swarmId)
      ((w.state.circuit.swarms swarmId).escrowPool - (w.state.circuit.swarms swarmId).settledAmount)
      (w.write (w.state.put (setSwarm swarmId ((w.state.circuit.swarms swarmId).dissolve now) w.state.circuit))) := by
  have hleft : swarmLeft ((w.state.circuit.swarms swarmId).dissolve now)
      + ((w.state.circuit.swarms swarmId).escrowPool - (w.state.circuit.swarms swarmId).settledAmount)
      = swarmLeft (w.state.circuit.swarms swarmId) := by
    rw [swarmLeft_dissolve, swarmLeft, Nat.zero_add]
    rcases hopen with hphase | hdone
    · rw [if_neg hphase]
    · rw [Nat.sub_eq_zero_of_le hdone, ite_self]
  exact (released_swarm hleft).backed hw (hw.books.registry.amendSwarm hfound rfl)

theorem forceDissolveSwarm_covers (hw : Covers (Books crypto) owed 0 w)
    (h : forceDissolveSwarm m swarmId p w = .ok w') : Covers (Books crypto) owed 0 w' := by
  rw [forceDissolveSwarm, guarded_iff, guarded_iff, guarded_iff, bind_iff] at h
  obtain ⟨hfound, -, hopen, timeout, -, h⟩ := h
  rw [guarded_iff, bind_iff] at h
  obtain ⟨-, refund, hrefund, h⟩ := h
  obtain ⟨-, rfl⟩ := subU_ok_iff.mp hrefund
  have hbacked := dissolve_backed m.timestamp hw hfound (.inl hopen)
  exact covers_drop ((hbacked.of_eq (Nat.zero_add _).symm).payIf h).covers

/-- A `dissolveSwarm` that goes through is of a swarm that was not refunded. -/
def DissolvesOnce (m : Msg) (swarmId : Word) (w : World) : Prop :=
  m.sender = (w.state.circuit.swarms swarmId).coordinator ∨ m.holds .defaultAdmin = true → Unrefunded swarmId w

theorem dissolveSwarm_covers (hw : Covers (Books crypto) owed 0 w) (horder : DissolvesOnce m swarmId w)
    (h : dissolveSwarm m swarmId p w = .ok w') : Covers (Books crypto) owed 0 w' := by
  rw [dissolveSwarm, guarded_iff, guarded_iff, bind_iff] at h
  obtain ⟨hfound, hcaller, refund, hrefund, h⟩ := h
  obtain ⟨-, rfl⟩ := subU_ok_iff.mp hrefund
  have hopen : Unrefunded swarmId w := by
    refine horder ?_
    by_contra hnot
    obtain ⟨hsender, hadmin⟩ := not_or.mp hnot
    exact hcaller ⟨hsender, Bool.eq_false_of_not_eq_true hadmin⟩
  have hbacked := dissolve_backed m.timestamp hw hfound hopen
  split at h
  · obtain ⟨scaled, -, h⟩ := bind_iff.mp h
    obtain ⟨netRefund, hnet, h⟩ := bind_iff.mp h
    obtain ⟨hfee, rfl⟩ := subU_ok_iff.mp hnet
    obtain ⟨w1, hpay, h⟩ := bind_iff.mp h
    have hsplit : Backed crypto _ (0 + scaled / bpsDenom + ((w.state.circuit.swarms swarmId).escrowPool
        - (w.state.circuit.swarms swarmId).settledAmount - scaled / bpsDenom)) _ := hbacked.of_eq (by omega)
    have hpaid := hsplit.payIf hpay
    split at h
    · exact covers_drop (forwardFee_covers hpaid.note.1 h)
    · cases h
      exact covers_drop hpaid.covers
  · cases h
    exact covers_drop hbacked.covers

end A2APayments
