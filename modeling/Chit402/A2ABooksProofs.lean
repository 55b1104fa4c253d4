import Chit402.A2ACircuitProofs
import Chit402.DrawnIdProofs
import Chit402.FiniteSumProofs
import Mathlib.Data.FinEnum
import Mathlib.Data.Fintype.BigOperators

/-! # The books of the agent-to-agent circuit

    What the circuit owes to its bids, channels and swarms, and how the
    records account for it:

    The calls others make back into the contract keep all of it. -/

namespace A2ABooks

open ExceptFlow Solidity Custody DrawnId FiniteSum A2ACircuit Function Finset

variable {crypto : Crypto}

instance : Fintype Product := .ofList [.bid, .channel, .swarm] fun
  | .bid => by simp
  | .channel => by simp
  | .swarm => by simp

/-! ## What is owed -/

def Held (b : Bid) : Prop := b.status = .open ∨ b.status = .accepted

instance (b : Bid) : Decidable (Held b) := instDecidableOr

def openEscrow (b : Bid) : Nat := if Held b then b.escrowAmount else 0

/-- One for a bid that is open or accepted. -/
def openCount (b : Bid) : Nat := if b.createdAt ≠ 0 ∧ Held b then 1 else 0

def channelLeft (ch : PaymentChannel) : Nat := if ch.active then ch.deposit - ch.spent else 0

def swarmLeft (s : Swarm) : Nat := if s.phase = .dissolved then 0 else s.escrowPool - s.settledAmount

/-- What a source may still be paid, in each asset. -/
def due (c : State) : Source → Asset → Nat
  | (.bid, id) => Pi.single (assetOf (c.bids id).paymentToken) (openEscrow (c.bids id))
  | (.channel, id) => Pi.single .native (channelLeft (c.channels id))
  | (.swarm, id) => Pi.single .native (swarmLeft (c.swarms id))

def dues (c : State) (a : Asset) : Nat := ∑ src : Source, due c src a

def stakes (c : State) : Asset → Nat := Pi.single (.erc20 c.stakeToken) (∑ agent : Address, c.agentStakes agent)

/-- What spenders may still take of the contract's tokens. -/
def allowances (s : Chain) : Asset → Nat
  | .native => 0
  | .erc20 token => ∑ spender : Address, s.approved token spender

def owed (s : Chain) (a : Asset) : Nat := dues s.circuit a + stakes s.circuit a + allowances s a

theorem owed_put (c : State) (s : Chain) (a : Asset) : owed (s.put c) a = dues c a + stakes c a + allowances s a := rfl

variable {b b' : Bid} {transferred : Bool} {s : Chain} {endpoint : List UInt8} {capabilities : List Word} {m : Msg}
  {call : OpenCall} {ch : PaymentChannel} {c c' : State} {s' sw : Swarm} {id identityCommitment : Word} {w w' : World}

theorem dues_change (src : Source) (h : ∀ x, x ≠ src → due c' x = due c x) (a : Asset) :
    dues c' a + due c src a = dues c a + due c' src a :=
  sum_change (mem_univ src) fun x hx => congrFun (h x hx) a

/-- Writing the record of one source leaves the others' dues. -/
theorem due_update_bid (hbids : c'.bids = update c.bids id b) (hchannels : c'.channels = c.channels)
    (hswarms : c'.swarms = c.swarms) : ∀ x, x ≠ (Product.bid, id) → due c' x = due c x := by
  rintro ⟨product, x⟩ hx
  cases product with
  | bid =>
    have hne : x ≠ id := fun h => hx (by rw [h])
    rw [due, due, hbids, update_of_ne hne]
  | channel =>
    rw [due, due, hchannels]
  | swarm =>
    rw [due, due, hswarms]

theorem due_update_channel (hbids : c'.bids = c.bids) (hchannels : c'.channels = update c.channels id ch)
    (hswarms : c'.swarms = c.swarms) : ∀ x, x ≠ (Product.channel, id) → due c' x = due c x := by
  rintro ⟨product, x⟩ hx
  cases product with
  | bid =>
    rw [due, due, hbids]
  | channel =>
    have hne : x ≠ id := fun h => hx (by rw [h])
    rw [due, due, hchannels, update_of_ne hne]
  | swarm =>
    rw [due, due, hswarms]

theorem due_update_swarm (hbids : c'.bids = c.bids) (hchannels : c'.channels = c.channels)
    (hswarms : c'.swarms = update c.swarms id sw) : ∀ x, x ≠ (Product.swarm, id) → due c' x = due c x := by
  rintro ⟨product, x⟩ hx
  cases product with
  | bid =>
    rw [due, due, hbids]
  | channel =>
    rw [due, due, hchannels]
  | swarm =>
    have hne : x ≠ id := fun h => hx (by rw [h])
    rw [due, due, hswarms, update_of_ne hne]

theorem allowances_approve (token spender : Address) (amount : Nat) (s : Chain) (a : Asset) :
    allowances (approve token spender amount s) a
        + (Pi.single (.erc20 token) (s.approved token spender) : Asset → Nat) a
      = allowances s a + (Pi.single (.erc20 token) amount : Asset → Nat) a := by
  cases a with
  | native => rfl
  | erc20 t =>
    have hrow := sum_update_row s.approved token t spender amount
    simp only [Pi.single_apply] at hrow
    simp only [Pi.single_apply, Asset.erc20.injEq]
    exact hrow

/-! ## The registry -/

structure Registry (crypto : Crypto) (s : Chain) : Prop where
  bids : Drawn crypto.keccak256 s.drawnBids s.circuit.bidCount fun id => (s.circuit.bids id).createdAt ≠ 0
  channels : Drawn crypto.keccak256 s.drawnChannels s.circuit.channelCount
    fun id => (s.circuit.channels id).openedAt ≠ 0
  swarms : Drawn crypto.keccak256 s.drawnSwarms s.circuit.swarmCount fun id => (s.circuit.swarms id).formedAt ≠ 0
  noBid : ∀ id, (s.circuit.bids id).createdAt = 0 → s.circuit.bids id = noBid
  noChannel : ∀ id, (s.circuit.channels id).openedAt = 0 → s.circuit.channels id = noChannel
  noSwarm : ∀ id, (s.circuit.swarms id).formedAt = 0 → s.circuit.swarms id = noSwarm
  totalEscrow : s.circuit.totalEscrow = ∑ id : Word, openEscrow (s.circuit.bids id)
  activeBids : s.circuit.activeBids = ∑ id : Word, openCount (s.circuit.bids id)

/-- **PAID AT MOST ONCE**: a source is never charged more than it was given, less its due. -/
def Within (s : Chain) : Prop := ∀ src a, s.paid src a + due s.circuit src a ≤ s.given src a

structure Books (crypto : Crypto) (s : Chain) : Prop where
  registry : Registry crypto s
  within : Within s

/-! ## Changes that owe the same -/

/-- A bid stays, or is accepted. -/
def SameBid (b b' : Bid) : Prop :=
  b' = b ∨ b.createdAt ≠ 0 ∧ b.status = .open
    ∧ ∃ provider price, b' = { b with provider := provider, acceptedPrice := price, status := .accepted }

/-- A swarm stays, or has another member. -/
def SameSwarm (s s' : Swarm) : Prop :=
  s' = s ∨ s.formedAt ≠ 0 ∧ s.phase ≠ .dissolved
    ∧ ∃ memberCount phase, phase ≠ .dissolved ∧ s' = { s with memberCount := memberCount, phase := phase }

theorem SameBid.trans {b1 b2 b3 : Bid} (h1 : SameBid b1 b2) (h2 : SameBid b2 b3) : SameBid b1 b3 := by
  rcases h1 with rfl | ⟨hfound, hopen, provider, price, rfl⟩
  · exact h2
  · rcases h2 with rfl | ⟨-, hopen', -⟩
    · exact .inr ⟨hfound, hopen, provider, price, rfl⟩
    · cases hopen'

theorem SameSwarm.trans {s1 s2 s3 : Swarm} (h1 : SameSwarm s1 s2) (h2 : SameSwarm s2 s3) : SameSwarm s1 s3 := by
  rcases h1 with rfl | ⟨hfound, hopen, count, phase, hphase, rfl⟩
  · exact h2
  · rcases h2 with rfl | ⟨-, -, count', phase', hphase', rfl⟩
    · exact .inr ⟨hfound, hopen, count, phase, hphase, rfl⟩
    · exact .inr ⟨hfound, hopen, count', phase', hphase', rfl⟩

theorem SameBid.held (h : SameBid b b') :
    b'.createdAt = b.createdAt ∧ b'.paymentToken = b.paymentToken ∧ openEscrow b' = openEscrow b
      ∧ openCount b' = openCount b := by
  rcases h with rfl | ⟨-, hopen, provider, price, rfl⟩
  · exact ⟨rfl, rfl, rfl, rfl⟩
  · refine ⟨rfl, rfl, ?_, ?_⟩
    · rw [openEscrow, openEscrow, if_pos (.inr rfl), if_pos (.inl hopen)]
    · have hnew : Held { b with provider := provider, acceptedPrice := price, status := .accepted } := .inr rfl
      have hold : Held b := .inl hopen
      rw [openCount, openCount]
      simp only [hnew, hold]

theorem SameBid.accepted (h : SameBid b b') (hstatus : b.status = .accepted) : b' = b := by
  rcases h with rfl | ⟨-, hopen, -⟩
  · rfl
  · cases hopen.symm.trans hstatus

theorem SameBid.absent (h : SameBid b b') (hstamp : b.createdAt = 0) : b' = b := by
  rcases h with rfl | ⟨hfound, -⟩
  · rfl
  · exact absurd hstamp hfound

theorem SameSwarm.left {s : Swarm} (h : SameSwarm s s') :
    s'.formedAt = s.formedAt ∧ s'.escrowPool = s.escrowPool ∧ s'.settledAmount = s.settledAmount
      ∧ (s'.phase = .dissolved ↔ s.phase = .dissolved) := by
  rcases h with rfl | ⟨-, hopen, count, phase, hphase, rfl⟩
  · exact ⟨rfl, rfl, rfl, Iff.rfl⟩
  · exact ⟨rfl, rfl, rfl, fun hp => absurd hp hphase, fun hp => absurd hp hopen⟩

theorem SameSwarm.absent {s : Swarm} (h : SameSwarm s s') (hstamp : s.formedAt = 0) : s' = s := by
  rcases h with rfl | ⟨hfound, -⟩
  · rfl
  · exact absurd hstamp hfound

/-- No source is due more or less. -/
structure SameMoney (c c' : State) : Prop where
  bids : ∀ id, SameBid (c.bids id) (c'.bids id)
  channels : c'.channels = c.channels
  swarms : ∀ id, SameSwarm (c.swarms id) (c'.swarms id)
  counts : (c'.bidCount, c'.totalEscrow, c'.activeBids, c'.channelCount, c'.swarmCount)
    = (c.bidCount, c.totalEscrow, c.activeBids, c.channelCount, c.swarmCount)

/-- The records of the three products and their counters. -/
def money (c : State) :=
  ((c.bids, c.channels, c.swarms), c.bidCount, c.totalEscrow, c.activeBids, c.channelCount, c.swarmCount)

theorem SameMoney.keep (h : money c' = money c) : SameMoney c c' := by
  have hrecords := congrArg Prod.fst h
  have hbids : c'.bids = c.bids := congrArg Prod.fst hrecords
  have hswarms : c'.swarms = c.swarms := congrArg (fun r => r.2.2) hrecords
  refine ⟨fun id => ?_, congrArg (fun r => r.2.1) hrecords, fun id => ?_, congrArg Prod.snd h⟩
  · rw [hbids]
    exact .inl rfl
  · rw [hswarms]
    exact .inl rfl

theorem SameMoney.trans {c1 c2 c3 : State} (h1 : SameMoney c1 c2) (h2 : SameMoney c2 c3) : SameMoney c1 c3 :=
  ⟨fun id => (h1.bids id).trans (h2.bids id), h2.channels.trans h1.channels,
    fun id => (h1.swarms id).trans (h2.swarms id), h2.counts.trans h1.counts⟩

theorem SameMoney.due (h : SameMoney c c') : due c' = due c := by
  funext ⟨product, id⟩
  cases product with
  | bid =>
    obtain ⟨-, htoken, hescrow, -⟩ := (h.bids id).held
    show (Pi.single (assetOf (c'.bids id).paymentToken) (openEscrow (c'.bids id)) : Asset → Nat) = _
    rw [htoken, hescrow]
    rfl
  | channel =>
    show (Pi.single .native (channelLeft (c'.channels id)) : Asset → Nat) = _
    rw [h.channels]
    rfl
  | swarm =>
    obtain ⟨-, hpool, hsettled, hphase⟩ := (h.swarms id).left
    show (Pi.single .native (swarmLeft (c'.swarms id)) : Asset → Nat) = Pi.single .native (swarmLeft (c.swarms id))
    rw [swarmLeft, swarmLeft, hpool, hsettled, if_congr hphase rfl rfl]

theorem SameMoney.dues (h : SameMoney c c') (a : Asset) : dues c' a = dues c a := by
  rw [A2ABooks.dues, A2ABooks.dues, h.due]

/-- **STANDS**: what calls back leave standing. -/
structure Stands (s s' : Chain) : Prop where
  money : SameMoney s.circuit s'.circuit
  drawnBids : s'.drawnBids = s.drawnBids
  drawnChannels : s'.drawnChannels = s.drawnChannels
  drawnSwarms : s'.drawnSwarms = s.drawnSwarms
  given : s'.given = s.given
  paid : s'.paid = s.paid

theorem Stands.refl (s : Chain) : Stands s s := ⟨.keep rfl, rfl, rfl, rfl, rfl, rfl⟩

theorem Stands.trans {t u : Chain} (h1 : Stands s t) (h2 : Stands t u) : Stands s u :=
  ⟨h1.money.trans h2.money, h2.drawnBids.trans h1.drawnBids, h2.drawnChannels.trans h1.drawnChannels,
    h2.drawnSwarms.trans h1.drawnSwarms, h2.given.trans h1.given, h2.paid.trans h1.paid⟩

/-- The registry reads no amount given or paid. -/
theorem Registry.same {s' : Chain} (h : Registry crypto s) (hm : SameMoney s.circuit s'.circuit)
    (hbids : s'.drawnBids = s.drawnBids) (hchannels : s'.drawnChannels = s.drawnChannels)
    (hswarms : s'.drawnSwarms = s.drawnSwarms) : Registry crypto s' := by
  obtain ⟨hbidCount, htotal, hactive, hchannelCount, hswarmCount⟩ :
      s'.circuit.bidCount = s.circuit.bidCount ∧ s'.circuit.totalEscrow = s.circuit.totalEscrow
        ∧ s'.circuit.activeBids = s.circuit.activeBids ∧ s'.circuit.channelCount = s.circuit.channelCount
        ∧ s'.circuit.swarmCount = s.circuit.swarmCount := by
    have := hm.counts
    exact ⟨congrArg Prod.fst this, congrArg (fun r => r.2.1) this, congrArg (fun r => r.2.2.1) this,
      congrArg (fun r => r.2.2.2.1) this, congrArg (fun r => r.2.2.2.2) this⟩
  refine ⟨?_, ?_, ?_, fun id hid => ?_, ?_, fun id hid => ?_, ?_, ?_⟩
  · rw [hbids, hbidCount]
    exact h.bids.mono fun id hid => by rwa [(hm.bids id).held.1] at hid
  · rw [hchannels, hchannelCount, hm.channels]
    exact h.channels
  · rw [hswarms, hswarmCount]
    exact h.swarms.mono fun id hid => by rwa [(hm.swarms id).left.1] at hid
  · have hstamp : (s.circuit.bids id).createdAt = 0 := by rw [← (hm.bids id).held.1]; exact hid
    rw [(hm.bids id).absent hstamp]
    exact h.noBid id hstamp
  · rw [hm.channels]
    exact h.noChannel
  · have hstamp : (s.circuit.swarms id).formedAt = 0 := by rw [← (hm.swarms id).left.1]; exact hid
    rw [(hm.swarms id).absent hstamp]
    exact h.noSwarm id hstamp
  · rw [htotal, h.totalEscrow]
    exact sum_congr rfl fun id _ => (hm.bids id).held.2.2.1.symm
  · rw [hactive, h.activeBids]
    exact sum_congr rfl fun id _ => (hm.bids id).held.2.2.2.symm

theorem Stands.books {s' : Chain} (h : Stands s s') (hb : Books crypto s) : Books crypto s' := by
  refine ⟨hb.registry.same h.money h.drawnBids h.drawnChannels h.drawnSwarms, fun src a => ?_⟩
  rw [h.paid, h.given, h.money.due]
  exact hb.within src a

/-! ## Records that change -/

theorem Registry.amendChannel (h : Registry crypto s) (hfound : (s.circuit.channels id).openedAt ≠ 0)
    (hstamp : ch.openedAt = (s.circuit.channels id).openedAt) : Registry crypto (s.put (setChannel id ch s.circuit)) :=
  ⟨h.bids, h.channels.amend hfound, h.swarms, h.noBid, blank_update h.noChannel (hstamp ▸ hfound), h.noSwarm,
    h.totalEscrow, h.activeBids⟩

theorem Registry.amendSwarm (h : Registry crypto s) (hfound : (s.circuit.swarms id).formedAt ≠ 0)
    (hstamp : sw.formedAt = (s.circuit.swarms id).formedAt) : Registry crypto (s.put (setSwarm id sw s.circuit)) :=
  ⟨h.bids, h.channels, h.swarms.amend hfound, h.noBid, h.noChannel, blank_update h.noSwarm (hstamp ▸ hfound),
    h.totalEscrow, h.activeBids⟩

/-- What `closeBid` writes. -/
theorem closeBid_ok (h : closeBid id b c = .ok c') : b.escrowAmount ≤ c.totalEscrow ∧ 1 ≤ c.activeBids ∧ c' = { c with
        bids := update c.bids id b
        totalEscrow := c.totalEscrow - b.escrowAmount
        activeBids := c.activeBids - 1 } := by
  rw [closeBid, bind_iff] at h
  obtain ⟨totalEscrow, htotal, h⟩ := h
  obtain ⟨hle, rfl⟩ := subU_ok_iff.mp htotal
  obtain ⟨activeBids, hactive, h⟩ := bind_iff.mp h
  obtain ⟨hone, rfl⟩ := subU_ok_iff.mp hactive
  exact ⟨hle, hone, (Except.ok.inj h).symm⟩

/-- A bid that leaves the escrow leaves its sum and its count. -/
theorem Registry.closeBid (h : Registry crypto s) (hfound : (s.circuit.bids id).createdAt ≠ 0)
    (hheld : Held (s.circuit.bids id)) (hstamp : b.createdAt = (s.circuit.bids id).createdAt)
    (hescrow : b.escrowAmount = (s.circuit.bids id).escrowAmount) (hclosed : ¬ Held b)
    (hclose : A2ACircuit.closeBid id b s.circuit = .ok c) : Registry crypto (s.put c) := by
  obtain ⟨-, -, rfl⟩ := closeBid_ok hclose
  refine ⟨h.bids.amend hfound, h.channels, h.swarms, blank_update h.noBid (hstamp ▸ hfound), h.noChannel, h.noSwarm,
    ?_, ?_⟩
  · have hsum := sum_update (mem_univ id) (fun _ b => openEscrow b) s.circuit.bids b
    have hnew : openEscrow b = 0 := if_neg hclosed
    have hold : openEscrow (s.circuit.bids id) = b.escrowAmount := (if_pos hheld).trans hescrow.symm
    have htotal := h.totalEscrow
    show s.circuit.totalEscrow - b.escrowAmount = ∑ x, openEscrow (update s.circuit.bids id b x)
    omega
  · have hsum := sum_update (mem_univ id) (fun _ b => openCount b) s.circuit.bids b
    have hnew : openCount b = 0 := if_neg fun hc => hclosed hc.2
    have hold : openCount (s.circuit.bids id) = 1 := if_pos ⟨hfound, hheld⟩
    have hactive := h.activeBids
    show s.circuit.activeBids - 1 = ∑ x, openCount (update s.circuit.bids id b x)
    omega

/-! ## Calls made back -/

/-- A call that leaves the records standing and is no worse off: what it owes more, it holds more. -/
structure Harmless (w w' : World) : Prop where
  stands : Stands w.state w'.state
  enough : ∀ a, owed w'.state a + w.holdings a ≤ owed w.state a + w'.holdings a

theorem Harmless.covers {pending : Asset → Nat} (h : Harmless w w') (hw : Covers (Books crypto) owed pending w) :
    Covers (Books crypto) owed pending w' := by
  refine ⟨h.stands.books hw.books, fun a => ?_⟩
  have hless := h.enough a
  have hheld := hw.enough a
  omega

/-- Writes to the contract's own storage. -/
theorem Harmless.config {w : World} {c : State} (h : SameMoney w.state.circuit c)
    (hstakes : ∀ a, stakes c a ≤ stakes w.state.circuit a) : Harmless w (w.write (w.state.put c)) := by
  refine ⟨⟨h, rfl, rfl, rfl, rfl, rfl⟩, fun a => ?_⟩
  have hdues := h.dues a
  have := hstakes a
  show dues c a + stakes c a + allowances w.state a + w.holdings a
    ≤ dues w.state.circuit a + stakes w.state.circuit a + allowances w.state a + w.holdings a
  omega

theorem Harmless.credit (w : World) (a : Asset) (amount : Nat) : Harmless w (w.credit a amount) := by
  refine ⟨.refl _, fun b => ?_⟩
  rw [World.credit_state]
  by_cases hb : b = a
  · subst hb
    rw [World.credit_same]
    omega
  · rw [World.credit_ne hb]

/-- A stake that is set is in the contract's tokens. -/
theorem stakes_update (agent : Address) (amount : Nat) (a : Asset) :
    stakes (setStake agent amount c) a + (Pi.single (.erc20 c.stakeToken) (c.agentStakes agent) : Asset → Nat) a
      = stakes c a + (Pi.single (.erc20 c.stakeToken) amount : Asset → Nat) a := by
  have hsum := sum_update (mem_univ agent) (fun _ n => n) c.agentStakes amount
  show (Pi.single (.erc20 c.stakeToken) (∑ x, update c.agentStakes agent amount x) : Asset → Nat) a + _ = stakes c a + _
  rw [stakes]
  by_cases ha : a = .erc20 c.stakeToken
  · subst ha
    rw [Pi.single_eq_same, Pi.single_eq_same, Pi.single_eq_same, Pi.single_eq_same]
    exact hsum
  · rw [Pi.single_eq_of_ne ha, Pi.single_eq_of_ne ha, Pi.single_eq_of_ne ha, Pi.single_eq_of_ne ha]

theorem enrol_ok (h : enrol m identityCommitment endpoint capabilities c = .ok c') :
    money c' = money c ∧ stakes c' = stakes c := by
  rw [enrol, bind_iff] at h
  obtain ⟨agentCount, -, h⟩ := h
  cases h
  exact ⟨rfl, rfl⟩

theorem registerAgent_harmless (h : registerAgent m identityCommitment endpoint capabilities transferred w = .ok w') :
    Harmless w w' := by
  rw [registerAgent, guarded_iff, guarded_iff] at h
  obtain ⟨-, -, h⟩ := h
  split at h
  · rw [guarded_iff, bind_iff] at h
    obtain ⟨-, c, hc, h⟩ := h
    cases h
    obtain ⟨hmoney, hstakes⟩ := enrol_ok hc
    have hsame : SameMoney w.state.circuit c := .keep hmoney
    refine ⟨⟨hsame, rfl, rfl, rfl, rfl, rfl⟩, fun a => ?_⟩
    -- the old stake is forgotten, the new one comes in
    have hstake := stakes_update (c := w.state.circuit) m.sender w.state.circuit.minStake a
    have hdues := hsame.dues a
    rw [World.write_state, owed_put, owed, World.write_holdings, hdues, hstakes]
    by_cases ha : a = .erc20 w.state.circuit.stakeToken
    · subst ha
      rw [Pi.single_eq_same, Pi.single_eq_same] at hstake
      rw [World.credit_same]
      omega
    · rw [Pi.single_eq_of_ne ha, Pi.single_eq_of_ne ha] at hstake
      rw [World.credit_ne ha]
      omega
  · rw [bind_iff] at h
    obtain ⟨c, hc, h⟩ := h
    cases h
    obtain ⟨hmoney, hstakes⟩ := enrol_ok hc
    exact .config (.keep hmoney) fun a => by rw [hstakes]

theorem slashAgent_harmless {agent : Address} {slashAmount : Nat}
    (h : slashAgent m agent slashAmount transferred w = .ok w') : Harmless w w' := by
  rw [slashAgent, guarded_iff, guarded_iff, guarded_iff, guarded_iff] at h
  obtain ⟨-, -, -, hstaked, h⟩ := h
  have hstake := stakes_update (c := w.state.circuit) agent (w.state.circuit.agentStakes agent - slashAmount)
  have hslash : Harmless w (w.write (w.state.put
      (setStake agent (w.state.circuit.agentStakes agent - slashAmount) w.state.circuit))) := by
    refine .config (.keep rfl) fun a => ?_
    have := hstake a
    by_cases ha : a = .erc20 w.state.circuit.stakeToken
    · subst ha
      rw [Pi.single_eq_same, Pi.single_eq_same] at this
      omega
    · rw [Pi.single_eq_of_ne ha, Pi.single_eq_of_ne ha] at this
      omega
  split at h
  · rw [guarded_iff] at h
    obtain ⟨hmoved, h⟩ := h
    cases h
    refine ⟨hslash.stands, fun a => ?_⟩
    have hheld : slashAmount ≤ w.holdings (.erc20 w.state.circuit.stakeToken) := by
      by_contra hlt
      exact hmoved (.inr (Nat.not_le.mp hlt))
    have hless := hslash.enough a
    have hnew := hstake a
    have hdues := hslash.stands.money.dues a
    rw [World.write_state, Chain.put_circuit] at hdues
    rw [World.debit_state]
    by_cases ha : a = .erc20 w.state.circuit.stakeToken
    · subst ha
      rw [Pi.single_eq_same, Pi.single_eq_same] at hnew
      rw [World.debit_same, World.write_holdings, World.write_state, owed_put, owed, hdues]
      omega
    · rw [World.debit_ne ha]
      exact hless
  · cases h
    exact hslash

theorem takeApproved_harmless {token : Address} {amount : Nat} (h : takeApproved m token amount w = .ok w') :
    Harmless w w' := by
  rw [takeApproved, guarded_iff] at h
  obtain ⟨hmoved, h⟩ := h
  cases h
  obtain ⟨happroved, hheld⟩ := not_or.mp hmoved
  refine ⟨⟨.keep rfl, rfl, rfl, rfl, rfl, rfl⟩, fun a => ?_⟩
  have hallow := allowances_approve token m.sender (w.state.approved token m.sender - amount) w.state a
  rw [World.write_state, World.write_holdings]
  show dues w.state.circuit a + stakes w.state.circuit a + allowances _ a + _
    ≤ dues w.state.circuit a + stakes w.state.circuit a + allowances w.state a + _
  by_cases ha : a = .erc20 token
  · subst ha
    rw [Pi.single_eq_same, Pi.single_eq_same] at hallow
    rw [World.debit_same]
    omega
  · rw [Pi.single_eq_of_ne ha, Pi.single_eq_of_ne ha] at hallow
    rw [World.debit_ne ha]
    omega

theorem acceptBid_ok {bidId : Word} {price : Nat} (h : acceptBid m bidId price c = .ok c') :
    SameMoney c c' ∧ stakes c' = stakes c := by
  rw [acceptBid, guarded_iff, guarded_iff, guarded_iff, guarded_iff, guarded_iff, guarded_iff] at h
  obtain ⟨-, hfound, hopen, -, -, -, h⟩ := h
  cases h
  refine ⟨⟨fun id => ?_, rfl, fun id => .inl rfl, rfl⟩, rfl⟩
  by_cases hid : id = bidId
  · subst hid
    exact .inr ⟨hfound, not_not.mp hopen, m.sender, price, update_self ..⟩
  · exact .inl (update_of_ne hid ..)

theorem joinSwarm_ok {swarmId : Word} (h : joinSwarm m swarmId c = .ok c') : SameMoney c c' ∧ stakes c' = stakes c := by
  rw [joinSwarm, guarded_iff, guarded_iff, guarded_iff, guarded_iff, guarded_iff, guarded_iff] at h
  obtain ⟨-, hfound, hphase, -, -, -, h⟩ := h
  cases h
  have hopen : (c.swarms swarmId).phase ≠ .dissolved := by
    intro hd
    rw [hd] at hphase
    exact hphase ⟨nofun, nofun⟩
  refine ⟨⟨fun id => .inl rfl, rfl, fun id => ?_, rfl⟩, rfl⟩
  by_cases hid : id = swarmId
  · subst hid
    refine .inr ⟨hfound, hopen, _, _, ?_, update_self ..⟩
    split
    · exact nofun
    · exact hopen
  · exact .inl (update_of_ne hid ..)

theorem execConfig_ok (call : OpenCall) (c : State) :
    Ensures (fun c' => SameMoney c c' ∧ stakes c' = stakes c) (execConfig m call c) := by
  cases call with
  | acceptBid bidId price => exact fun _ h => acceptBid_ok h
  | joinSwarm swarmId => exact fun _ h => joinSwarm_ok h
  | deactivateAgent | updateReputation | setRelayFee | setTaskFee | setSwarmFee | pause | unpause =>
    exact ensures_skip fun _ => ensures_skip fun _ => ensures_ok ⟨.keep rfl, rfl⟩
  | setRevenueSplitter | setZKVerifier | setFairExchangeProxy | setMinStake | setSwarmTimeout =>
    exact ensures_skip fun _ => ensures_ok ⟨.keep rfl, rfl⟩
  | _ => exact ensures_ok ⟨.keep rfl, rfl⟩

/-- **CALLED BACK**: no call without the guard touches what a source is due. -/
theorem execOpen_harmless (h : execOpen m call w = .ok w') : Harmless w w' := by
  have hconfig : (execConfig m call w.state.circuit >>= fun c => .ok (w.write (w.state.put c))) = .ok w' →
      Harmless w w' := by
    intro h
    obtain ⟨c, hc, h⟩ := bind_iff.mp h
    cases h
    obtain ⟨hmoney, hstakes⟩ := execConfig_ok _ _ c hc
    exact .config hmoney fun a => by rw [hstakes]
  cases call with
  | registerAgent identityCommitment endpoint capabilities transferred =>
    exact registerAgent_harmless h
  | slashAgent agent slashAmount transferred =>
    exact slashAgent_harmless h
  | receive | sendTokens =>
    cases h
    exact .credit ..
  | takeApproved token amount =>
    exact takeApproved_harmless h
  | _ =>
    exact hconfig h

theorem Harmless.refl (w : World) : Harmless w w := ⟨.refl _, fun _ => Nat.le_refl _⟩

theorem play_harmless (w : World) (n : Msg × OpenCall) : Harmless w (play w n) := by
  rw [play]
  split
  · rename_i h
    exact execOpen_harmless h
  · exact .refl w

theorem play_covers (pending : Asset → Nat) (w : World) (n : Msg × OpenCall)
    (h : Covers (Books crypto) owed pending w) : Covers (Books crypto) owed pending (play w n) :=
  (play_harmless w n).covers h

theorem calls_stand (w : World) (calls : List (Msg × OpenCall)) : Stands w.state (Trace.run play w calls).state :=
  Trace.run_invariant (fun w' : World => Stands w.state w'.state) calls (.refl _)
    fun w' n h => h.trans (play_harmless w' n).stands

end A2ABooks
