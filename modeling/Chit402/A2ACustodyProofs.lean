import Chit402.A2APaymentsProofs

/-! # Custody of bids, channels and swarms

    The calls that take deposits, and the runs of all of them.

    `custody` is the result: as long as `settleBid` and `cancelBid` are
    called on bids in native value and `dissolveSwarm` on swarms with nothing
    paid back yet, every source is covered in its asset and charged at most
    what it was given.  `drained` shows runs
    that do neither. -/

namespace A2ACustody

open ExceptFlow Solidity Custody DrawnId FiniteSum A2ACircuit A2ABooks A2APayments Function Finset

variable {crypto : Crypto} {m : Msg} {p : Peers} {w w' : World} {src : Source}

/-! ## Deposits -/

/-- **DEPOSITED**: `src` is given `amount` of `a`, and due it. -/
structure Deposited (s s' : Chain) (src : Source) (a : Asset) (amount : Nat) : Prop where
  more : due s'.circuit src = due s.circuit src + Pi.single a amount
  others : ∀ x, x ≠ src → due s'.circuit x = due s.circuit x
  stakes : stakes s'.circuit = stakes s.circuit
  given : s'.given = update s.given src (update (s.given src) a (s.given src a + amount))
  paid : s'.paid = s.paid
  approved : s'.approved = s.approved

variable {a : Asset} {s s' : Chain} {amount fee : Nat}

theorem Deposited.within (h : Deposited s s' src a amount) (hs : Within s) : Within s' := by
  intro x b
  have hwithin := hs x b
  rw [h.paid, h.given]
  by_cases hx : x = src
  · subst hx
    rw [update_self, h.more, Pi.add_apply]
    by_cases hb : b = a
    · subst hb
      rw [update_self, Pi.single_eq_same]
      omega
    · rw [update_of_ne hb, Pi.single_eq_of_ne hb]
      exact hwithin
  · rw [update_of_ne hx, h.others x hx]
    exact hwithin

theorem Deposited.owed_add (h : Deposited s s' src a amount) (b : Asset) :
    owed s' b = owed s b + (Pi.single a amount : Asset → Nat) b := by
  have hchange := dues_change src h.others b
  have hallow : allowances s' b = allowances s b := by
    cases b with
    | native => rfl
    | erc20 token => rw [allowances, allowances, h.approved]
  rw [h.more, Pi.add_apply] at hchange
  rw [owed, owed, h.stakes, hallow]
  omega

theorem Deposited.covers (extra : Nat) (h : Deposited w.state s src a amount)
    (hw : Covers (Books crypto) owed (Pi.single a (amount + extra)) w) (hregistry : Registry crypto s) :
    Covers (Books crypto) owed (0 + Pi.single a extra) (w.write s) := by
  refine hw.write ⟨hregistry, h.within hw.books.within⟩ fun b => ?_
  rw [h.owed_add, Pi.single_add, Pi.add_apply, Pi.add_apply]
  show _ ≤ _
  rw [Pi.zero_apply]
  omega

section Openings

variable {taskHash capabilityRequired objectiveHash : Word} {token payee : Address}
  {value net deadline duration maxMembers : Nat}

def nextBid (crypto : Crypto) (m : Msg) (s : Chain) : Word :=
  crypto.keccak256 (bidHead crypto m ++ bigEndian 32 s.circuit.bidCount)

/-- What `openBid` writes. -/
structure OpenedBid (crypto : Crypto) (m : Msg) (token : Address) (net : Nat) (s s' : Chain) : Prop where
  room : s.circuit.bidCount + 1 < 2 ^ 256
  bids : ∃ b, b.createdAt ≠ 0 ∧ b.paymentToken = token ∧ b.escrowAmount = net ∧ Held b
    ∧ s'.circuit.bids = update s.circuit.bids (nextBid crypto m s) b
  bidCount : s'.circuit.bidCount = s.circuit.bidCount + 1
  totalEscrow : s'.circuit.totalEscrow = s.circuit.totalEscrow + net
  activeBids : s'.circuit.activeBids = s.circuit.activeBids + 1
  channels : s'.circuit.channels = s.circuit.channels ∧ s'.circuit.channelCount = s.circuit.channelCount
  swarms : s'.circuit.swarms = s.circuit.swarms ∧ s'.circuit.swarmCount = s.circuit.swarmCount
  stakes : stakes s'.circuit = stakes s.circuit
  drawnBids : s'.drawnBids = s.drawnBids ++ [bidHead crypto m ++ bigEndian 32 s.circuit.bidCount]
  drawnChannels : s'.drawnChannels = s.drawnChannels
  drawnSwarms : s'.drawnSwarms = s.drawnSwarms
  given : s'.given = update s.given (.bid, nextBid crypto m s) (update (s.given (.bid, nextBid crypto m s))
    (assetOf token) (s.given (.bid, nextBid crypto m s) (assetOf token) + net))
  paid : s'.paid = s.paid
  approved : s'.approved = s.approved

theorem openBid_ok (h : openBid crypto m taskHash capabilityRequired net deadline token s = .ok s') :
    OpenedBid crypto m token net s s' := by
  rw [openBid, bind_iff] at h
  obtain ⟨bidCount, hcount, h⟩ := h
  obtain ⟨hroom, rfl⟩ := addU_ok_iff.mp hcount
  obtain ⟨totalEscrow, htotal, h⟩ := bind_iff.mp h
  obtain ⟨-, rfl⟩ := addU_ok_iff.mp htotal
  obtain ⟨activeBids, hactive, h⟩ := bind_iff.mp h
  obtain ⟨-, rfl⟩ := addU_ok_iff.mp hactive
  cases h
  exact {
    room := hroom
    bids := ⟨_, Nat.ne_of_gt m.positive, rfl, rfl, .inl rfl, rfl⟩
    bidCount := rfl
    totalEscrow := rfl
    activeBids := rfl
    channels := ⟨rfl, rfl⟩
    swarms := ⟨rfl, rfl⟩
    stakes := rfl
    drawnBids := rfl
    drawnChannels := rfl
    drawnSwarms := rfl
    given := rfl
    paid := rfl
    approved := rfl }

/-- **A NEW BID**: under a name not in use, counted in the escrow. -/
theorem OpenedBid.deposited (h : OpenedBid crypto m token net s s') (hs : Registry crypto s)
    (hhash : Set.InjOn crypto.keccak256 {q | q ∈ s'.drawnBids}) :
    Deposited s s' (.bid, nextBid crypto m s) (assetOf token) net ∧ Registry crypto s' := by
  obtain ⟨b, hstamp, htoken, hnet, hheld, hbids⟩ := h.bids
  have hroom := h.room
  rw [h.drawnBids] at hhash
  have hblank : s.circuit.bids (nextBid crypto m s) = noBid :=
    hs.noBid _ (not_not.mp (hs.bids.fresh (by omega) hhash))
  have hescrow : openEscrow b = net := (if_pos hheld).trans hnet
  have hnone : openEscrow noBid = 0 := rfl
  constructor
  · refine ⟨?_, due_update_bid hbids h.channels.1 h.swarms.1, h.stakes, h.given, h.paid, h.approved⟩
    rw [due, due, hbids, update_self, hblank, hescrow, htoken, hnone, Pi.single_zero, zero_add]
  · constructor
    · rw [h.drawnBids, h.bidCount, hbids]
      exact hs.bids.add (bidHead crypto m)
    · rw [h.drawnChannels, h.channels.1, h.channels.2]
      exact hs.channels
    · rw [h.drawnSwarms, h.swarms.1, h.swarms.2]
      exact hs.swarms
    · rw [hbids]
      exact blank_update hs.noBid hstamp
    · rw [h.channels.1]
      exact hs.noChannel
    · rw [h.swarms.1]
      exact hs.noSwarm
    · have hsum := sum_update (mem_univ (nextBid crypto m s)) (fun _ b => openEscrow b) s.circuit.bids b
      rw [hblank, hnone, hescrow] at hsum
      rw [h.totalEscrow, hs.totalEscrow, hbids]
      omega
    · have hsum := sum_update (mem_univ (nextBid crypto m s)) (fun _ b => openCount b) s.circuit.bids b
      have hzero : openCount noBid = 0 := rfl
      have hone : openCount b = 1 := if_pos ⟨hstamp, hheld⟩
      rw [hblank, hzero, hone] at hsum
      rw [h.activeBids, hs.activeBids, hbids]
      omega

theorem relay_stands (h : relay p fee w = .ok w') : Stands w.state w'.state := by
  rw [relay, bind_iff] at h
  obtain ⟨total, -, h⟩ := h
  have hcount : Stands w.state (w.state.put { w.state.circuit with totalRelayFees := total }) :=
    ⟨.keep rfl, rfl, rfl, rfl, rfl, rfl⟩
  exact hcount.trans (forwardFee_stands h)

theorem relay_covers (hw : Covers (Books crypto) owed (0 + Pi.single .native fee) w) (h : relay p fee w = .ok w') :
    Covers (Books crypto) owed 0 w' := by
  rw [relay, bind_iff] at h
  obtain ⟨total, -, h⟩ := h
  have hcount : Harmless w (w.write (w.state.put { w.state.circuit with totalRelayFees := total })) :=
    .config (.keep rfl) fun _ => Nat.le_refl _
  exact forwardFee_covers (hcount.covers hw) h

theorem submitBid_ok (h : submitBid crypto m value taskHash capabilityRequired deadline p w = .ok w') :
    ∃ fee net s, value = net + fee ∧ OpenedBid crypto m 0 net w.state s
      ∧ (relay p fee ((w.credit .native value).write s) = .ok w' ∨ w' = (w.credit .native value).write s) := by
  rw [submitBid, guarded_iff, guarded_iff, guarded_iff, bind_iff] at h
  obtain ⟨-, -, -, scaled, -, h⟩ := h
  obtain ⟨net, hnet, h⟩ := bind_iff.mp h
  obtain ⟨hle, rfl⟩ := subU_ok_iff.mp hnet
  obtain ⟨s, hopen, h⟩ := bind_iff.mp h
  refine ⟨scaled / bpsDenom, _, s, by omega, openBid_ok hopen, ?_⟩
  split at h
  · exact .inl h
  · exact .inr (Except.ok.inj h).symm

theorem submitBid_covers (hw : Covers (Books crypto) owed 0 w)
    (hhash : Set.InjOn crypto.keccak256 {q | q ∈ w'.state.drawnBids})
    (h : submitBid crypto m value taskHash capabilityRequired deadline p w = .ok w') :
    Covers (Books crypto) owed 0 w' := by
  obtain ⟨fee, net, s, rfl, hopened, hend⟩ := submitBid_ok h
  have hdrawn : w'.state.drawnBids = s.drawnBids := by
    rcases hend with hrelay | rfl
    · exact (relay_stands hrelay).drawnBids
    · rfl
  rw [hdrawn] at hhash
  obtain ⟨hdeposited, hregistry⟩ := hopened.deposited hw.books.registry hhash
  have hin := hw.credit .native (net + fee)
  rw [zero_add] at hin
  have hwrite := Deposited.covers (w := w.credit .native (net + fee)) fee hdeposited hin hregistry
  rcases hend with hrelay | rfl
  · exact relay_covers hwrite hrelay
  · exact hwrite.drop

theorem forwardTokenFee_eq (p : Peers) (token : Address) (fee : Nat) (w : World) : forwardTokenFee token fee p w = w
    ∨ ∃ calls, forwardTokenFee token fee p w
      = Trace.run play (w.write (approve token w.state.circuit.revenueSplitter fee w.state)) calls := by
  rw [forwardTokenFee]
  split
  · obtain ⟨calls, hrun⟩ : ∃ calls, notify play p.receiveERC20Fee (Trace.run play
        (w.write (approve token w.state.circuit.revenueSplitter fee w.state)) p.approve.calls)
      = Trace.run play _ calls := notify_eq _ _
    exact .inr ⟨p.approve.calls ++ calls, by rw [hrun, Trace.run_append]⟩
  · exact .inl rfl

theorem forwardTokenFee_stands (fee : Nat) (w : World) : Stands w.state (forwardTokenFee token fee p w).state := by
  have happrove : Stands w.state (approve token w.state.circuit.revenueSplitter fee w.state) :=
    ⟨.keep rfl, rfl, rfl, rfl, rfl, rfl⟩
  rcases forwardTokenFee_eq p token fee w with heq | ⟨calls, heq⟩
  · rw [heq]
    exact .refl _
  · rw [heq]
    exact happrove.trans (calls_stand (w.write (approve token w.state.circuit.revenueSplitter fee w.state)) calls)

/-- The splitter's allowance takes the fee's place. -/
theorem forwardTokenFee_covers (hw : Covers (Books crypto) owed (0 + Pi.single (.erc20 token) fee) w) :
    Covers (Books crypto) owed 0 (forwardTokenFee token fee p w) := by
  rcases forwardTokenFee_eq p token fee w with heq | ⟨calls, heq⟩
  · rw [heq]
    exact hw.drop
  · rw [heq]
    refine Covers.run play_covers calls (hw.write ?_ fun a => ?_)
    · have happrove : Stands w.state (approve token w.state.circuit.revenueSplitter fee w.state) :=
        ⟨.keep rfl, rfl, rfl, rfl, rfl, rfl⟩
      exact happrove.books hw.books
    · have hallow := allowances_approve token w.state.circuit.revenueSplitter fee w.state a
      rw [zero_add]
      show dues w.state.circuit a + stakes w.state.circuit a + allowances _ a + 0
        ≤ dues w.state.circuit a + stakes w.state.circuit a + allowances w.state a + _
      omega

theorem submitBidWithTDROP_ok
    (h : submitBidWithTDROP crypto m token value taskHash capabilityRequired deadline p w = .ok w') :
    ∃ fee net s w1, token ≠ 0 ∧ value = net + fee
      ∧ pull play Revert.tdropTransferFailed (.erc20 token) p.transferFrom value w = .ok w1
      ∧ OpenedBid crypto m token net w1.state s ∧ ((∃ total, w' = forwardTokenFee token fee p
            (w1.write (s.put { s.circuit with totalRelayFees := total }))) ∨ w' = w1.write s) := by
  rw [submitBidWithTDROP, guarded_iff, guarded_iff, guarded_iff, guarded_iff, bind_iff] at h
  obtain ⟨-, htoken, -, -, w1, hpull, h⟩ := h
  obtain ⟨scaled, -, h⟩ := bind_iff.mp h
  obtain ⟨net, hnet, h⟩ := bind_iff.mp h
  obtain ⟨hle, rfl⟩ := subU_ok_iff.mp hnet
  obtain ⟨s, hopen, h⟩ := bind_iff.mp h
  refine ⟨scaled / bpsDenom, _, s, w1, htoken, by omega, hpull, openBid_ok hopen, ?_⟩
  split at h
  · obtain ⟨total, -, h⟩ := bind_iff.mp h
    exact .inl ⟨total, (Except.ok.inj h).symm⟩
  · exact .inr (Except.ok.inj h).symm

theorem submitBidWithTDROP_covers (hw : Covers (Books crypto) owed 0 w)
    (hhash : Set.InjOn crypto.keccak256 {q | q ∈ w'.state.drawnBids})
    (h : submitBidWithTDROP crypto m token value taskHash capabilityRequired deadline p w = .ok w') :
    Covers (Books crypto) owed 0 w' := by
  obtain ⟨fee, net, s, w1, htoken, rfl, hpull, hopened, hend⟩ := submitBidWithTDROP_ok h
  have hdrawn : w'.state.drawnBids = s.drawnBids := by
    rcases hend with ⟨total, rfl⟩ | rfl
    · exact (forwardTokenFee_stands fee _).drawnBids
    · rfl
  rw [hdrawn] at hhash
  have hin := hw.pull play_covers hpull
  rw [zero_add] at hin
  obtain ⟨hdeposited, hregistry⟩ := hopened.deposited hin.books.registry hhash
  have hasset : assetOf token = .erc20 token := if_neg htoken
  rw [hasset] at hdeposited
  have hwrite := hdeposited.covers fee hin hregistry
  rcases hend with ⟨total, rfl⟩ | rfl
  · have hcount : Harmless (w1.write s) (w1.write (s.put { s.circuit with totalRelayFees := total })) :=
      .config (.keep rfl) fun _ => Nat.le_refl _
    exact forwardTokenFee_covers (hcount.covers hwrite)
  · exact hwrite.drop

theorem sendMessage_covers {recipient : Address} (hw : Covers (Books crypto) owed 0 w)
    (h : sendMessage value recipient p w = .ok w') : Covers (Books crypto) owed 0 w' := by
  rw [sendMessage, guarded_iff, guarded_iff, bind_iff] at h
  obtain ⟨-, -, fee, -, h⟩ := h
  obtain ⟨w1, hrelay, h⟩ := bind_iff.mp h
  obtain ⟨relayed, -, h⟩ := bind_iff.mp h
  obtain ⟨rest, hrest, h⟩ := bind_iff.mp h
  obtain ⟨hle, -⟩ := subU_ok_iff.mp hrest
  cases h
  have hw1 : Covers (Books crypto) owed 0 w1 := by
    have hin := hw.credit .native value
    rw [relayMessage] at hrelay
    split at hrelay
    · refine relay_covers (hin.mono fun a => ?_) hrelay
      by_cases ha : a = .native
      · subst ha
        rw [Pi.add_apply, Pi.add_apply, Pi.single_eq_same, Pi.single_eq_same]
        omega
      · rw [Pi.add_apply, Pi.add_apply, Pi.single_eq_of_ne ha, Pi.single_eq_of_ne ha]
    · cases hrelay
      exact hin.drop
  have hcount : Harmless w1 (w1.write (w1.state.put { w1.state.circuit with totalMessagesRelayed := relayed })) :=
    .config (.keep rfl) fun _ => Nat.le_refl _
  exact hcount.covers hw1

theorem Deposited.carried (h : Deposited w.state s src .native value) (hw : Covers (Books crypto) owed 0 w)
    (hregistry : Registry crypto s) : Covers (Books crypto) owed 0 ((w.credit .native value).write s) := by
  have hin := hw.credit .native value
  rw [zero_add] at hin
  exact (Deposited.covers (w := w.credit .native value) 0 h hin hregistry).drop

/-- **A NEW CHANNEL**. -/
theorem recordChannel_deposited (hs : Registry crypto s) (hhash : Set.InjOn crypto.keccak256 {q | q ∈ s'.drawnChannels})
    (h : recordChannel crypto m value payee duration s = .ok s') :
    Deposited s s' (.channel, crypto.keccak256 (channelHead crypto m payee ++ bigEndian 32 s.circuit.channelCount))
      .native value ∧ Registry crypto s' := by
  rw [recordChannel, bind_iff] at h
  obtain ⟨channelCount, hcount, h⟩ := h
  obtain ⟨hroom, rfl⟩ := addU_ok_iff.mp hcount
  cases h
  have hblank : s.circuit.channels (crypto.keccak256
    (channelHead crypto m payee ++ bigEndian 32 s.circuit.channelCount)) = noChannel :=
    hs.noChannel _ (not_not.mp (hs.channels.fresh (by omega) hhash))
  have hnone : channelLeft noChannel = 0 := rfl
  constructor
  · refine ⟨?_, due_update_channel rfl rfl rfl, rfl, rfl, rfl, rfl⟩
    rw [due, due, hblank, hnone, Pi.single_zero, zero_add]
    show (Pi.single .native (channelLeft (update s.circuit.channels _ _ _)) : Asset → Nat) = _
    rw [update_self]
    rfl
  · exact ⟨hs.bids, hs.channels.add _, hs.swarms, hs.noBid, blank_update hs.noChannel (Nat.ne_of_gt m.positive),
      hs.noSwarm, hs.totalEscrow, hs.activeBids⟩

theorem openChannel_covers (hw : Covers (Books crypto) owed 0 w)
    (hhash : Set.InjOn crypto.keccak256 {q | q ∈ w'.state.drawnChannels})
    (h : openChannel crypto m value payee duration w = .ok w') : Covers (Books crypto) owed 0 w' := by
  rw [openChannel, guarded_iff, guarded_iff, guarded_iff, guarded_iff, bind_iff] at h
  obtain ⟨-, -, -, -, s, hrecord, h⟩ := h
  cases h
  obtain ⟨hdeposited, hregistry⟩ := recordChannel_deposited hw.books.registry hhash hrecord
  exact hdeposited.carried hw hregistry

/-- **A NEW SWARM**. -/
theorem recordSwarm_deposited (hs : Registry crypto s) (hhash : Set.InjOn crypto.keccak256 {q | q ∈ s'.drawnSwarms})
    (h : recordSwarm crypto m value objectiveHash maxMembers s = .ok s') :
    Deposited s s' (.swarm, crypto.keccak256 (swarmHead crypto m objectiveHash ++ bigEndian 32 s.circuit.swarmCount))
      .native value ∧ Registry crypto s' := by
  rw [recordSwarm, bind_iff] at h
  obtain ⟨swarmCount, hcount, h⟩ := h
  obtain ⟨hroom, rfl⟩ := addU_ok_iff.mp hcount
  cases h
  have hblank : s.circuit.swarms (crypto.keccak256 (swarmHead crypto m objectiveHash
    ++ bigEndian 32 s.circuit.swarmCount)) = noSwarm :=
    hs.noSwarm _ (not_not.mp (hs.swarms.fresh (by omega) hhash))
  have hnone : swarmLeft noSwarm = 0 := rfl
  constructor
  · refine ⟨?_, due_update_swarm rfl rfl rfl, rfl, rfl, rfl, rfl⟩
    rw [due, due, hblank, hnone, Pi.single_zero, zero_add]
    show (Pi.single .native (swarmLeft (update s.circuit.swarms _ _ _)) : Asset → Nat) = _
    rw [update_self]
    rfl
  · exact ⟨hs.bids, hs.channels, hs.swarms.add _, hs.noBid, hs.noChannel,
      blank_update hs.noSwarm (Nat.ne_of_gt m.positive), hs.totalEscrow, hs.activeBids⟩

theorem formSwarm_covers (hw : Covers (Books crypto) owed 0 w)
    (hhash : Set.InjOn crypto.keccak256 {q | q ∈ w'.state.drawnSwarms})
    (h : formSwarm crypto m value objectiveHash maxMembers w = .ok w') : Covers (Books crypto) owed 0 w' := by
  rw [formSwarm, guarded_iff, guarded_iff, guarded_iff, guarded_iff, bind_iff] at h
  obtain ⟨-, -, -, -, s, hrecord, h⟩ := h
  cases h
  obtain ⟨hdeposited, hregistry⟩ := recordSwarm_deposited hw.books.registry hhash hrecord
  exact hdeposited.carried hw hregistry

end Openings

/-! ## Runs -/

/-- What the run is asked. -/
def InOrder (w : World) (tx : Tx) : Prop :=
  match tx.call with
  | .settleBid bidId _ _ => SettlesNative tx.msg bidId w
  | .cancelBid bidId => CancelsNative tx.msg bidId w
  | .dissolveSwarm swarmId => DissolvesOnce tx.msg swarmId w
  | _ => True

instance decidableInOrder (w : World) (tx : Tx) : Decidable (InOrder w tx) :=
  match tx with
  | ⟨m, .settleBid bidId _ _, _⟩ =>
    inferInstanceAs (Decidable (m.holds .relayer = true → (w.state.circuit.bids bidId).status = .accepted →
      (w.state.circuit.bids bidId).paymentToken = 0))
  | ⟨m, .cancelBid bidId, _⟩ =>
    inferInstanceAs (Decidable (m.sender = (w.state.circuit.bids bidId).requester →
      (w.state.circuit.bids bidId).status = .open → (w.state.circuit.bids bidId).paymentToken = 0))
  | ⟨m, .dissolveSwarm swarmId, _⟩ =>
    inferInstanceAs (Decidable (m.sender = (w.state.circuit.swarms swarmId).coordinator
        ∨ m.holds .defaultAdmin = true →
      (w.state.circuit.swarms swarmId).phase ≠ .dissolved
        ∨ (w.state.circuit.swarms swarmId).escrowPool ≤ (w.state.circuit.swarms swarmId).settledAmount))
  | ⟨_, .submitBid .., _⟩ => .isTrue trivial
  | ⟨_, .submitBidWithTDROP .., _⟩ => .isTrue trivial
  | ⟨_, .settleBidFairExchange .., _⟩ => .isTrue trivial
  | ⟨_, .openChannel .., _⟩ => .isTrue trivial
  | ⟨_, .claimChannel .., _⟩ => .isTrue trivial
  | ⟨_, .closeChannel .., _⟩ => .isTrue trivial
  | ⟨_, .sendMessage .., _⟩ => .isTrue trivial
  | ⟨_, .formSwarm .., _⟩ => .isTrue trivial
  | ⟨_, .settleSwarmAgent .., _⟩ => .isTrue trivial
  | ⟨_, .forceDissolveSwarm .., _⟩ => .isTrue trivial
  | ⟨_, .openCall .., _⟩ => .isTrue trivial

theorem injOn_of_noCollision {hash : List UInt8 → Word} {strings : List (List UInt8)} (h : NoCollision hash strings) :
    Set.InjOn hash {q | q ∈ strings} :=
  fun q hq q' hq' heq => h q hq q' hq' heq

/-- The hash does not collide on the strings hashed to ids. -/
def NewNames (crypto : Crypto) (w : World) (tx : Tx) : Prop :=
  let s := (step crypto w tx).state
  NoCollision crypto.keccak256 s.drawnBids ∧ NoCollision crypto.keccak256 s.drawnChannels
    ∧ NoCollision crypto.keccak256 s.drawnSwarms

instance decidableNewNames (crypto : Crypto) (w : World) (tx : Tx) : Decidable (NewNames crypto w tx) := by
  delta NewNames
  infer_instance

/-- **STEP**: a call in order keeps every source covered. -/
theorem step_covers {tx : Tx} (hnames : NewNames crypto w tx) (horder : InOrder w tx)
    (hw : Covers (Books crypto) owed 0 w) : Covers (Books crypto) owed 0 (step crypto w tx) := by
  obtain ⟨hbids, hchannels, hswarms⟩ := hnames
  obtain ⟨m, call, p⟩ := tx
  cases h : exec crypto ⟨m, call, p⟩ w with
  | error e =>
    rw [step, h]
    exact hw
  | ok w' =>
    rw [step, h] at hbids hchannels hswarms ⊢
    cases call with
    | submitBid value taskHash capability deadline =>
      exact submitBid_covers hw (injOn_of_noCollision hbids) h
    | submitBidWithTDROP token escrow taskHash capability deadline =>
      exact submitBidWithTDROP_covers hw (injOn_of_noCollision hbids) h
    | settleBid bidId resultHash nullifier =>
      exact settleBid_covers hw horder h
    | settleBidFairExchange bidId resultHash v r s =>
      exact settleBidFairExchange_covers hw h
    | cancelBid bidId =>
      exact cancelBid_covers hw horder h
    | openChannel value payee duration =>
      exact openChannel_covers hw (injOn_of_noCollision hchannels) h
    | claimChannel channelId amount nullifier =>
      exact claimChannel_covers hw h
    | closeChannel channelId =>
      exact closeChannel_covers hw h
    | sendMessage value recipient =>
      exact sendMessage_covers hw h
    | formSwarm value objectiveHash maxMembers =>
      exact formSwarm_covers hw (injOn_of_noCollision hswarms) h
    | settleSwarmAgent swarmId agent amount nullifier =>
      exact settleSwarmAgent_covers hw h
    | dissolveSwarm swarmId =>
      exact dissolveSwarm_covers hw horder h
    | forceDissolveSwarm swarmId =>
      exact forceDissolveSwarm_covers hw h
    | openCall call =>
      exact (execOpen_harmless h).covers hw

/-! ## The result -/

/-- The escrows of the bids in `a`. -/
def bidEscrow (c : State) (a : Asset) : Nat :=
  ∑ id : Word, if assetOf (c.bids id).paymentToken = a then openEscrow (c.bids id) else 0

/-- **IN CUSTODY**: the balances cover bids, channels, swarms and stakes; no source is
    charged more than it was given in any asset; the counters count. -/
structure InCustody (w : World) : Prop where
  native : bidEscrow w.state.circuit .native + ∑ id : Word, channelLeft (w.state.circuit.channels id)
    + ∑ id : Word, swarmLeft (w.state.circuit.swarms id) ≤ w.holdings .native
  tokens : ∀ token, bidEscrow w.state.circuit (.erc20 token)
    + (if token = w.state.circuit.stakeToken then ∑ agent : Address, w.state.circuit.agentStakes agent else 0)
      ≤ w.holdings (.erc20 token)
  charged : ∀ src a, w.state.paid src a + due w.state.circuit src a ≤ w.state.given src a
  totalEscrow : w.state.circuit.totalEscrow = ∑ id : Word, openEscrow (w.state.circuit.bids id)
  activeBids : w.state.circuit.activeBids
    = (univ.filter fun id : Word => (w.state.circuit.bids id).createdAt ≠ 0 ∧ Held (w.state.circuit.bids id)).card

theorem sum_products (f : Product → Nat) : ∑ x : Product, f x = f .bid + f .channel + f .swarm := by
  show f .bid + (f .channel + (f .swarm + 0)) = _
  omega

theorem dues_eq (c : State) (a : Asset) : dues c a
    = bidEscrow c a + ∑ id : Word, (Pi.single .native (channelLeft (c.channels id)) : Asset → Nat) a
      + ∑ id : Word, (Pi.single .native (swarmLeft (c.swarms id)) : Asset → Nat) a := by
  have hbids : ∑ id : Word, due c (.bid, id) a = bidEscrow c a := by
    refine sum_congr rfl fun id _ => ?_
    rw [due]
    by_cases ha : assetOf (c.bids id).paymentToken = a
    · rw [if_pos ha, ← ha, Pi.single_eq_same]
    · rw [if_neg ha, Pi.single_eq_of_ne fun h => ha h.symm]
  rw [dues, Fintype.sum_prod_type, sum_products, hbids]
  rfl

theorem Covers.inCustody (h : Covers (Books crypto) owed 0 w) : InCustody w := by
  have howed : ∀ a, dues w.state.circuit a + stakes w.state.circuit a ≤ w.holdings a := by
    intro a
    have henough := h.enough a
    rw [owed] at henough
    omega
  refine ⟨?_, fun token => ?_, h.books.within, h.books.registry.totalEscrow, ?_⟩
  · have hnative := howed .native
    simp only [dues_eq, Pi.single_eq_same] at hnative
    omega
  · have htoken := howed (.erc20 token)
    rw [dues_eq, stakes] at htoken
    split
    · rename_i hstake
      rw [hstake, Pi.single_eq_same] at htoken
      rw [hstake]
      omega
    · omega
  · rw [h.books.registry.activeBids, card_filter]
    rfl

theorem start_covers (revenueSplitter zkVerifier stakeToken : Address) (holdings : Asset → Nat) :
    Covers (Books crypto) owed 0 (start revenueSplitter zkVerifier stakeToken holdings) := by
  have hdue : ∀ src, due (deploy revenueSplitter zkVerifier stakeToken) src = 0 := by
    rintro ⟨product, id⟩
    cases product with
    | bid | channel | swarm => exact Pi.single_zero _
  refine ⟨⟨?_, fun src a => ?_⟩, fun a => ?_⟩
  · refine ⟨.start _ fun _ h => h rfl, .start _ fun _ h => h rfl, .start _ fun _ h => h rfl, fun _ _ => rfl,
      fun _ _ => rfl, fun _ _ => rfl, (sum_eq_zero fun _ _ => rfl).symm, (sum_eq_zero fun _ _ => ?_).symm⟩
    exact if_neg fun h => h.1 rfl
  · show 0 + due (deploy revenueSplitter zkVerifier stakeToken) src a ≤ 0
    rw [hdue]
    exact Nat.le_refl 0
  · have hdues : dues (deploy revenueSplitter zkVerifier stakeToken) a = 0 :=
      sum_eq_zero fun src _ => by rw [hdue]; rfl
    have hstakes : stakes (deploy revenueSplitter zkVerifier stakeToken) a = 0 := by
      have hnone : ∑ agent : Address, (deploy revenueSplitter zkVerifier stakeToken).agentStakes agent = 0 :=
        sum_eq_zero fun _ _ => rfl
      rw [stakes, hnone, Pi.single_zero]
      rfl
    have hallow : allowances (start revenueSplitter zkVerifier stakeToken holdings).state a = 0 := by
      cases a with
      | native => rfl
      | erc20 token => exact sum_eq_zero fun _ _ => rfl
    show dues (deploy revenueSplitter zkVerifier stakeToken) a + stakes (deploy revenueSplitter zkVerifier stakeToken) a
      + allowances (start revenueSplitter zkVerifier stakeToken holdings).state a + 0 ≤ holdings a
    rw [hdues, hstakes, hallow]
    exact Nat.zero_le _

/-- **CUSTODY**: in a run in order, after every call the contract holds what its bids,
    channels and swarms are due, in their assets, and has charged each at most what it
    was given. -/
theorem custody (revenueSplitter zkVerifier stakeToken : Address) (holdings : Asset → Nat) (txs : List Tx)
    (hnames : Trace.Along (step crypto) (NewNames crypto) (start revenueSplitter zkVerifier stakeToken holdings) txs)
    (horder : Trace.Along (step crypto) InOrder (start revenueSplitter zkVerifier stakeToken holdings) txs)
    (before after : List Tx) (hsplit : txs = before ++ after) :
    InCustody (run crypto (start revenueSplitter zkVerifier stakeToken holdings) before) := by
  subst hsplit
  have hboth := (Trace.along_append.mp hnames).1.and (Trace.along_append.mp horder).1
  exact Covers.inCustody (hboth.keeps (Covers (Books crypto) owed 0)
    (start_covers revenueSplitter zkVerifier stakeToken holdings) fun w tx h => step_covers h.1 h.2)

/-! ## A run in order, and two that are not -/

def sampleCircuitId : Word := 0x0ec7b782bdb9da0168908eb7a980d0184641806105158d29d9da68d66d856706

def malloryBid : Word := 0x3f6b89664da0ed16cee19a2b48e41cad1dd60e84eb120098478f723b6b3c8e06

def carolChannel : Word := 0x97bac07c5ce8ff17b48c0b64035fa8be6209965d9181314b02d234512ecb4a27

def mallorySwarm : Word := 0xf57eec2a3d721dfecb5d921b249e45ad70d50cc64b78f47d009d608494efed50

/-- Keccak-256 on the strings the runs hash; zero elsewhere. -/
def sampleCrypto : Crypto where
  keccak256 := fun message =>
    (([("A2A_CIRCUIT".toUTF8.toList, sampleCircuitId),
      (wordBytes sampleCircuitId ++ addressBytes 0x3A11 ++ bigEndian 32 1 ++ bigEndian 32 0, malloryBid),
      (wordBytes sampleCircuitId ++ addressBytes 0xCA401 ++ addressBytes 0xB0B ++ bigEndian 32 1 ++ bigEndian 32 0,
        carolChannel),
      (wordBytes sampleCircuitId ++ addressBytes 0x3A11 ++ wordBytes 7 ++ bigEndian 32 0, mallorySwarm)] :
      List (List UInt8 × Word)).lookup message).getD 0
  ecrecover := fun _ _ _ _ => 0

def sampleReply : Reply where
  ok := true
  calls := []

def sampleTx (sender : Address) (call : Call) : Tx where
  msg := {
    sender := sender
    timestamp := 1700000000
    blockNumber := 1
    holds := fun _ => sender == 0xAD
    positive := by decide
    inRange := by decide }
  call := call
  peers := {
    payout := sampleReply
    refund := sampleReply
    depositFee := sampleReply
    plainFee := sampleReply
    verifyProof := sampleReply
    transferFrom := sampleReply
    approve := sampleReply
    receiveERC20Fee := sampleReply }

/-- Carol opens a channel to Bob with 10000. -/
def sampleChannel : Tx := sampleTx 0xCA401 (.openChannel 10000 0xB0B 3600)

def sampleTokenBid : Tx := sampleTx 0x3A11 (.submitBidWithTDROP 0x70 10000 1 2 1700003600)

/-- Mallory, an agent, forms a swarm with 10000, and dissolves it. -/
def sampleSwarm : List Tx := [
  sampleTx 0x3A11 (.openCall (.registerAgent 1 [] [] true)),
  sampleTx 0x3A11 (.formSwarm 10000 7 3),
  sampleTx 0x3A11 (.dissolveSwarm mallorySwarm)]

def sampleStart : World := start 0 0 0 fun _ => 0

def sampleTxs : List Tx := [sampleChannel, sampleTokenBid] ++ sampleSwarm

theorem custody_sample : InCustody (run sampleCrypto sampleStart sampleTxs) := by
  have hnames : Trace.Along (step sampleCrypto) (NewNames sampleCrypto) sampleStart sampleTxs := by
    decide +kernel
  have horder : Trace.Along (step sampleCrypto) InOrder sampleStart sampleTxs := by
    decide +kernel
  exact custody 0 0 0 (fun _ => 0) sampleTxs hnames horder sampleTxs [] rfl

/-- Mallory cancels a bid in a token and is paid from Carol's channel; or dissolves a
    swarm twice, and is paid from it the second time. -/
theorem drained :
    let cancelled := [sampleChannel, sampleTokenBid, sampleTx 0x3A11 (.cancelBid malloryBid)]
    let dissolved := sampleChannel :: sampleSwarm ++ [sampleTx 0x3A11 (.dissolveSwarm mallorySwarm)]
    let w := run sampleCrypto sampleStart cancelled
    let v := run sampleCrypto sampleStart dissolved
    Trace.Along (step sampleCrypto) (NewNames sampleCrypto) sampleStart cancelled
      ∧ w.holdings .native = 10 ∧ channelLeft (w.state.circuit.channels carolChannel) = 10000 ∧ ¬ InCustody w
      ∧ Trace.Along (step sampleCrypto) (NewNames sampleCrypto) sampleStart dissolved
      ∧ v.holdings .native = 60 ∧ channelLeft (v.state.circuit.channels carolChannel) = 10000 ∧ ¬ InCustody v := by
  intro cancelled dissolved w v
  have hcancelled : Trace.Along (step sampleCrypto) (NewNames sampleCrypto) sampleStart cancelled := by
    decide +kernel
  have hdissolved : Trace.Along (step sampleCrypto) (NewNames sampleCrypto) sampleStart dissolved := by
    decide +kernel
  have hw : w.holdings .native = 10 ∧ channelLeft (w.state.circuit.channels carolChannel) = 10000
      ∧ w.state.given (.bid, malloryBid) .native < w.state.paid (.bid, malloryBid) .native := by
    decide +kernel
  have hv : v.holdings .native = 60 ∧ channelLeft (v.state.circuit.channels carolChannel) = 10000
      ∧ v.state.given (.swarm, mallorySwarm) .native < v.state.paid (.swarm, mallorySwarm) .native := by
    decide +kernel
  refine ⟨hcancelled, hw.1, hw.2.1, fun h => ?_, hdissolved, hv.1, hv.2.1, fun h => ?_⟩
  · have := h.charged (.bid, malloryBid) .native
    have := hw.2.2
    omega
  · have := h.charged (.swarm, mallorySwarm) .native
    have := hv.2.2
    omega

end A2ACustody
