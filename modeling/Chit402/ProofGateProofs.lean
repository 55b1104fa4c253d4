import Chit402.A2ACustodyProofs
import Chit402.NullifierLedgerProofs
import Chit402.ThetaCircuitProofs

/-! # Settlement behind a proof

    The circuits call `verifyProof` of their verifier by a low-level call
    and ask for its success flag.  The verifier reverts when it is not open
    to a proof, but returns false, and keeps what it wrote, when the gateway
    rejects one: to the circuits that is a success.

    A circuit and its verifier are put side by side, and the call between
    them is the one the source makes. -/

namespace ProofGate

open ExceptFlow Solidity Custody Function

/-! ## Nullifiers of the agent circuit -/

section A2A

open A2ACircuit

variable {m : Msg} {p : Peers} {n : Word} {w w' : World}

/-- `n` is spent in the circuit. -/
def SpentA2A (n : Word) (w : World) : Prop := w.state.circuit.usedNullifiers n = true

theorem execConfig_used (call : OpenCall) (c : State) :
    Ensures (fun c' => c'.usedNullifiers = c.usedNullifiers) (execConfig m call c) := by
  cases call with
  | deactivateAgent | updateReputation | setRelayFee | setTaskFee | setSwarmFee | pause | unpause =>
    exact ensures_skip fun _ => ensures_skip fun _ => ensures_ok rfl
  | acceptBid | joinSwarm =>
    exact ensures_skip fun _ => ensures_skip fun _ => ensures_skip fun _ => ensures_skip fun _ =>
      ensures_skip fun _ => ensures_skip fun _ => ensures_ok rfl
  | setRevenueSplitter | setZKVerifier | setFairExchangeProxy | setMinStake | setSwarmTimeout =>
    exact ensures_skip fun _ => ensures_ok rfl
  | _ => exact ensures_ok rfl

theorem enrol_used {identityCommitment : Word} {endpoint : List UInt8} {capabilities : List Word} (c : State) :
    Ensures (fun c' => c'.usedNullifiers = c.usedNullifiers) (enrol m identityCommitment endpoint capabilities c) :=
  ensures_skip fun _ => ensures_ok rfl

theorem put_spent {c : State} (hused : c.usedNullifiers = w.state.circuit.usedNullifiers) (h : SpentA2A n w) :
    SpentA2A n (w.write (w.state.put c)) := by
  show c.usedNullifiers n = true
  rw [hused]
  exact h

theorem config_spent (call : OpenCall) (h : SpentA2A n w) :
    Ensures (SpentA2A n) (execConfig m call w.state.circuit >>= fun c => .ok (w.write (w.state.put c))) :=
  ensures_bind (execConfig_used call _) fun _ hused => ensures_ok (put_spent hused h)

theorem execOpen_spent (call : OpenCall) (h : SpentA2A n w) : Ensures (SpentA2A n) (execOpen m call w) := by
  cases call with
  | registerAgent identityCommitment endpoint capabilities transferred =>
    refine ensures_skip fun _ => ensures_skip fun _ => ensures_ite ?_ ?_
    · exact ensures_skip fun _ => ensures_bind (enrol_used _) fun c hused =>
        ensures_ok (show c.usedNullifiers n = true from by rw [hused]; exact h)
    · exact ensures_bind (enrol_used _) fun c hused => ensures_ok (put_spent hused h)
  | slashAgent agent slashAmount transferred =>
    iterate 4 refine ensures_skip fun _ => ?_
    refine ensures_ite ?_ ?_
    · exact ensures_skip fun _ => ensures_ok h
    · exact ensures_ok h
  | receive value => exact ensures_ok h
  | sendTokens token amount => exact ensures_ok h
  | takeApproved token amount => exact ensures_skip fun _ => ensures_ok h
  | deactivateAgent agent => exact config_spent (.deactivateAgent agent) h
  | acceptBid bidId price => exact config_spent (.acceptBid bidId price) h
  | joinSwarm swarmId => exact config_spent (.joinSwarm swarmId) h
  | updateReputation agent newReputation => exact config_spent (.updateReputation agent newReputation) h
  | setRelayFee bps => exact config_spent (.setRelayFee bps) h
  | setTaskFee bps => exact config_spent (.setTaskFee bps) h
  | setSwarmFee bps => exact config_spent (.setSwarmFee bps) h
  | setRevenueSplitter rs => exact config_spent (.setRevenueSplitter rs) h
  | setZKVerifier zk => exact config_spent (.setZKVerifier zk) h
  | setFairExchangeProxy proxy => exact config_spent (.setFairExchangeProxy proxy) h
  | setMinStake minStake => exact config_spent (.setMinStake minStake) h
  | setSwarmTimeout duration => exact config_spent (.setSwarmTimeout duration) h
  | pause => exact config_spent .pause h
  | unpause => exact config_spent .unpause h

theorem calls_spent (calls : List (Msg × OpenCall)) (h : SpentA2A n w) : SpentA2A n (Trace.run play w calls) := by
  refine Trace.run_invariant (SpentA2A n) calls h fun w k hw => ?_
  rw [play]
  split
  · rename_i w' hexec
    exact execOpen_spent k.2 hw w' hexec
  · exact hw

theorem send_spent {e : Revert} {a : Asset} {r : Reply} {amount : Nat} (h : SpentA2A n w) :
    Ensures (SpentA2A n) (send play e a r amount w) := by
  intro w' hsend
  obtain ⟨-, -, rfl⟩ := send_ok_iff.mp hsend
  exact calls_spent r.calls (show SpentA2A n (w.debit a amount) from h)

theorem payFrom_spent {src : Source} {e : Revert} {r : Reply} {amount : Nat} (h : SpentA2A n w) :
    Ensures (SpentA2A n) (payFrom src e r amount w) :=
  send_spent (show SpentA2A n (w.write (notePaid src .native amount w.state)) from h)

theorem payIf_spent {src : Source} {e : Revert} {r : Reply} {amount : Nat} (h : SpentA2A n w) :
    Ensures (SpentA2A n) (payIf src e r amount w) :=
  ensures_ite (payFrom_spent h) (ensures_ok h)

theorem forwardFee_spent {amount : Nat} (h : SpentA2A n w) : Ensures (SpentA2A n) (forwardFee p amount w) := by
  refine ensures_ite (ensures_ok h) fun w' hforward => ?_
  obtain ⟨-, calls, rfl⟩ := forward_ok hforward
  exact calls_spent calls (show SpentA2A n (w.debit .native amount) from h)

theorem chargeFee_spent {src : Source} {fee : Nat} (h : SpentA2A n w) : Ensures (SpentA2A n) (chargeFee p src fee w) :=
  ensures_ite (ensures_skip fun total => forwardFee_spent
    (show SpentA2A n (w.write (notePaid src .native fee
      (w.state.put { w.state.circuit with totalTaskFees := total }))) from h)) (ensures_ok h)

theorem verifyProof_spent (h : SpentA2A n w) : Ensures (SpentA2A n) (verifyProof p w) := by
  refine ensures_ite (fun w' hask => ?_) (ensures_ok h)
  obtain ⟨-, rfl⟩ := ask_ok_iff.mp hask
  exact calls_spent p.verifyProof.calls h

theorem creditAgent_used {agent : Address} (c : State) :
    Ensures (fun c' => c'.usedNullifiers = c.usedNullifiers) (creditAgent agent c) :=
  ensures_skip fun _ => ensures_skip fun _ => ensures_ok rfl

theorem payBid_spent {bidId : Word} {result : Bid → Bid} (h : SpentA2A n w) :
    Ensures (SpentA2A n) (payBid bidId result p w) := by
  iterate 3 refine ensures_skip fun _ => ?_
  have hclose : ∀ b, Ensures (fun c' => c'.usedNullifiers = w.state.circuit.usedNullifiers)
      (closeBid bidId b w.state.circuit) := fun b => ensures_skip fun _ => ensures_skip fun _ => ensures_ok rfl
  refine ensures_bind (hclose _) fun c hc => ensures_skip fun total => ?_
  have hclosed : SpentA2A n (w.write (w.state.put { c with totalSettled := total })) := put_spent hc h
  refine ensures_bind (payIf_spent hclosed) fun w1 h1 => ensures_bind (payIf_spent h1) fun w2 h2 =>
    ensures_bind (chargeFee_spent h2) fun w3 h3 => ensures_bind (creditAgent_used _) fun c' hc' =>
    ensures_skip fun relayed => ensures_ok (put_spent (w := w3) hc' h3)

theorem payClaim_spent {channelId : Word} {amount : Nat} (h : SpentA2A n w) :
    Ensures (SpentA2A n) (payClaim channelId amount p w) := by
  refine ensures_skip fun spent => ensures_skip fun _ => ensures_skip fun _ => ?_
  have hset : SpentA2A n (w.write (w.state.put
      (setChannel channelId ((w.state.circuit.channels channelId).spendTo spent) w.state.circuit))) := put_spent rfl h
  exact ensures_bind (payFrom_spent hset) fun w1 h1 => ensures_bind (chargeFee_spent h1) fun w2 h2 =>
    ensures_skip fun relayed => ensures_ok (put_spent rfl h2)

theorem payAgent_spent {swarmId : Word} {agent : Address} {amount : Nat} (h : SpentA2A n w) :
    Ensures (SpentA2A n) (payAgent swarmId agent amount p w) := by
  refine ensures_skip fun _ => ensures_skip fun _ => ensures_skip fun settled => ?_
  have hset : SpentA2A n (w.write (w.state.put
      (setSwarm swarmId ((w.state.circuit.swarms swarmId).settleTo settled) w.state.circuit))) := put_spent rfl h
  exact ensures_bind (payIf_spent hset) fun w1 h1 => ensures_bind (chargeFee_spent h1) fun w2 h2 =>
    ensures_bind (creditAgent_used _) fun c hc => ensures_skip fun _ => ensures_skip fun _ =>
    ensures_ok (put_spent (w := w2) hc h2)

/-- What a call of the agent circuit settles. -/
inductive AgentDeal where
  | settleBid (bidId resultHash : Word)
  | claimChannel (channelId : Word) (amount : Nat)
  | settleSwarmAgent (swarmId : Word) (agent : Address) (amount : Nat)

structure AgentCall where
  msg : Msg
  peers : Peers
  deal : AgentDeal
  nullifier : Word

namespace AgentCall

def exec (c : AgentCall) (p : Peers) (w : World) : Except Revert World :=
  match c.deal with
  | .settleBid bidId resultHash => settleBid c.msg bidId resultHash c.nullifier p w
  | .claimChannel channelId amount => claimChannel c.msg channelId amount c.nullifier p w
  | .settleSwarmAgent swarmId agent amount => settleSwarmAgent c.msg swarmId agent amount c.nullifier p w

/-- The checks before the proof. -/
def Ready (c : AgentCall) (s : State) : Prop :=
  s.paused = false ∧ s.usedNullifiers c.nullifier = false ∧
  match c.deal with
  | .settleBid bidId _ =>
    c.msg.holds .relayer = true ∧ (s.bids bidId).createdAt ≠ 0 ∧ (s.bids bidId).status = .accepted
  | .claimChannel channelId amount =>
    let ch := s.channels channelId
    ch.openedAt ≠ 0 ∧ ch.active = true ∧ c.msg.timestamp ≤ ch.expiresAt ∧ c.msg.sender = ch.payee
      ∧ ch.spent + amount < 2 ^ 256 ∧ ch.spent + amount ≤ ch.deposit
  | .settleSwarmAgent swarmId agent amount =>
    let sw := s.swarms swarmId
    c.msg.holds .relayer = true ∧ sw.formedAt ≠ 0 ∧ (sw.phase = .active ∨ sw.phase = .settling)
      ∧ s.swarmMembers swarmId agent = true ∧ sw.settledAmount + amount < 2 ^ 256
      ∧ sw.settledAmount + amount ≤ sw.escrowPool

def pay (c : AgentCall) (p : Peers) (w : World) : Except Revert World :=
  match c.deal with
  | .settleBid bidId resultHash =>
    payBid bidId (fun b => { b with resultHash := resultHash, proofNullifier := c.nullifier }) p w
  | .claimChannel channelId amount => payClaim channelId amount p w
  | .settleSwarmAgent swarmId agent amount => payAgent swarmId agent amount p w

theorem pay_spent (c : AgentCall) (h : SpentA2A n w) : Ensures (SpentA2A n) (c.pay p w) := by
  rw [pay]
  split
  case h_1 bidId resultHash => exact payBid_spent h
  case h_2 channelId amount => exact payClaim_spent h
  case h_3 swarmId agent amount => exact payAgent_spent h

/-- The nullifier is spent before the proof is asked for. -/
def mark (c : AgentCall) (w : World) : World := w.write (w.state.put (useNullifier c.nullifier w.state.circuit))

theorem mark_spent (c : AgentCall) (w : World) : SpentA2A c.nullifier (c.mark w) := update_self ..

/-- The checks, the proof, the payments. -/
theorem exec_ok_iff {c : AgentCall} :
    c.exec p w = .ok w' ↔ c.Ready w.state.circuit ∧ ∃ w1, verifyProof p (c.mark w) = .ok w1 ∧ c.pay p w1 = .ok w' := by
  obtain ⟨m, q, deal, nullifier⟩ := c
  cases deal with
  | settleBid bidId resultHash =>
    show settleBid m bidId resultHash nullifier p w = .ok w' ↔ _
    rw [settleBid, onlyRole, guarded_iff, guarded_iff, guarded_iff, guarded_iff, guarded_iff, bind_iff]
    constructor
    · rintro ⟨hrole, hpaused, hfound, hstatus, hunused, hrest⟩
      exact ⟨⟨Bool.eq_false_iff.mpr hpaused, Bool.eq_false_iff.mpr hunused, Bool.not_eq_false _ ▸ hrole, hfound,
        not_not.mp hstatus⟩, hrest⟩
    · rintro ⟨⟨hpaused, hunused, hrole, hfound, hstatus⟩, hrest⟩
      exact ⟨ne_false_of_eq_true hrole, ne_true_of_eq_false hpaused, hfound, not_not.mpr hstatus,
        ne_true_of_eq_false hunused, hrest⟩
  | claimChannel channelId amount =>
    show claimChannel m channelId amount nullifier p w = .ok w' ↔ _
    rw [claimChannel, guarded_iff, guarded_iff, guarded_iff, guarded_iff, guarded_iff, bind_iff]
    constructor
    · rintro ⟨hpaused, hfound, hactive, hexpired, hpayee, wanted, hwanted, h⟩
      obtain ⟨hfits, rfl⟩ := addU_ok_iff.mp hwanted
      rw [guarded_iff, guarded_iff, bind_iff] at h
      obtain ⟨hcovered, hunused, hrest⟩ := h
      exact ⟨⟨Bool.eq_false_iff.mpr hpaused, Bool.eq_false_iff.mpr hunused, hfound, not_not.mp hactive,
        Nat.not_lt.mp hexpired, not_not.mp hpayee, hfits, Nat.not_lt.mp hcovered⟩, hrest⟩
    · rintro ⟨⟨hpaused, hunused, hfound, hactive, hexpired, hpayee, hfits, hcovered⟩, hrest⟩
      refine ⟨ne_true_of_eq_false hpaused, hfound, not_not.mpr hactive, Nat.not_lt.mpr hexpired, not_not.mpr hpayee, _,
        addU_ok_iff.mpr ⟨hfits, rfl⟩, ?_⟩
      rw [guarded_iff, guarded_iff, bind_iff]
      exact ⟨Nat.not_lt.mpr hcovered, ne_true_of_eq_false hunused, hrest⟩
  | settleSwarmAgent swarmId agent amount =>
    show settleSwarmAgent m swarmId agent amount nullifier p w = .ok w' ↔ _
    rw [settleSwarmAgent, onlyRole, guarded_iff, guarded_iff, guarded_iff,
      guarded_iff, guarded_iff, guarded_iff, bind_iff]
    constructor
    · rintro ⟨hrole, hpaused, hfound, hphase, hmember, hunused, wanted, hwanted, h⟩
      obtain ⟨hfits, rfl⟩ := addU_ok_iff.mp hwanted
      rw [guarded_iff, bind_iff] at h
      exact ⟨⟨Bool.eq_false_iff.mpr hpaused, Bool.eq_false_iff.mpr hunused, Bool.not_eq_false _ ▸ hrole, hfound,
        Decidable.or_iff_not_not_and_not.mpr hphase, not_not.mp hmember, hfits, Nat.not_lt.mp h.1⟩, h.2⟩
    · rintro ⟨⟨hpaused, hunused, hrole, hfound, hphase, hmember, hfits, hcovered⟩, hrest⟩
      refine ⟨ne_false_of_eq_true hrole, ne_true_of_eq_false hpaused, hfound,
        Decidable.or_iff_not_not_and_not.mp hphase, not_not.mpr hmember, ne_true_of_eq_false hunused, _,
        addU_ok_iff.mpr ⟨hfits, rfl⟩, ?_⟩
      rw [guarded_iff, bind_iff]
      exact ⟨Nat.not_lt.mpr hcovered, hrest⟩

theorem exec_ne {c : AgentCall} (h : c.exec p w = .ok w') : w' ≠ w := by
  intro hsame
  obtain ⟨hready, w1, hverify, hpay⟩ := exec_ok_iff.mp h
  have hspent : SpentA2A c.nullifier w' := c.pay_spent (verifyProof_spent (c.mark_spent w) w1 hverify) w' hpay
  rw [hsame] at hspent
  exact absurd (hready.2.1.symm.trans hspent) Bool.false_ne_true

end AgentCall

end A2A

/-! ## Nullifiers of the inference circuit -/

section Theta

open ThetaCircuit

variable {keccak256 : List UInt8 → Word} {m : Msg} {p : Peers} {n : Word} {w w' : World}

/-- `n` is spent in the circuit. -/
def SpentTheta (n : Word) (w : World) : Prop := w.state.circuit.usedNullifiers n = true

theorem execConfig_kept (call : OpenCall) (c : State) :
    Ensures (fun c' => c'.usedNullifiers = c.usedNullifiers) (execConfig keccak256 m call c) := by
  cases call with
  | registerService | updateService | registerPreset | updatePreset | setGpuMultiplier | setFee | pause | unpause =>
    exact ensures_skip fun _ => ensures_skip fun _ => ensures_ok rfl
  | completeIntent | setTdropConfig =>
    exact ensures_skip fun _ => ensures_skip fun _ => ensures_skip fun _ => ensures_ok rfl
  | attestEdgeCloudNode intentId nodeId gpu used tag =>
    iterate 4 refine ensures_skip fun _ => ?_
    exact ensures_skip fun _ =>
      ensures_skip fun _ => ensures_ok rfl
  | setRevenueSplitter | setZKVerifier | setZKVerifierZkGPT => exact ensures_skip fun _ => ensures_ok rfl
  | receive | sendTokens | takeApproved => exact ensures_ok rfl

theorem put_kept {c : State} (hused : c.usedNullifiers = w.state.circuit.usedNullifiers) (h : SpentTheta n w) :
    SpentTheta n (w.write (w.state.put c)) := by
  show c.usedNullifiers n = true
  rw [hused]
  exact h

theorem config_kept (call : OpenCall) (h : SpentTheta n w) :
    Ensures (SpentTheta n) (execConfig keccak256 m call w.state.circuit >>= fun c => .ok (w.write (w.state.put c))) :=
  ensures_bind (execConfig_kept call _) fun _ hused => ensures_ok (put_kept hused h)

theorem execOpen_kept (call : OpenCall) (h : SpentTheta n w) :
    Ensures (SpentTheta n) (execOpen keccak256 m call w) := by
  cases call with
  | receive value => exact ensures_ok h
  | sendTokens token amount => exact ensures_ok h
  | takeApproved token amount => exact ensures_skip fun _ => ensures_ok h
  | registerService serviceType modelName price latency =>
    exact config_kept (.registerService serviceType modelName price latency) h
  | updateService serviceId newPrice active => exact config_kept (.updateService serviceId newPrice active) h
  | registerPreset name serviceType model gpu prompt =>
    exact config_kept (.registerPreset name serviceType model gpu prompt) h
  | updatePreset presetId active => exact config_kept (.updatePreset presetId active) h
  | setGpuMultiplier tier multiplierBps => exact config_kept (.setGpuMultiplier tier multiplierBps) h
  | completeIntent intentId outputHash modelHash latencyMs =>
    exact config_kept (.completeIntent intentId outputHash modelHash latencyMs) h
  | attestEdgeCloudNode intentId nodeId gpu used tag =>
    exact config_kept (.attestEdgeCloudNode intentId nodeId gpu used tag) h
  | setFee feeBps => exact config_kept (.setFee feeBps) h
  | setRevenueSplitter rs => exact config_kept (.setRevenueSplitter rs) h
  | setZKVerifier zk => exact config_kept (.setZKVerifier zk) h
  | setZKVerifierZkGPT zk => exact config_kept (.setZKVerifierZkGPT zk) h
  | setTdropConfig token discountBps rate => exact config_kept (.setTdropConfig token discountBps rate) h
  | pause => exact config_kept .pause h
  | unpause => exact config_kept .unpause h

theorem calls_kept (calls : List (Msg × OpenCall)) (h : SpentTheta n w) :
    SpentTheta n (Trace.run (play keccak256) w calls) := by
  refine Trace.run_invariant (SpentTheta n) calls h fun w k hw => ?_
  rw [play]
  split
  · rename_i w' hexec
    exact execOpen_kept k.2 hw w' hexec
  · exact hw

/-- A call of the inference circuit that asks for a proof. -/
structure IntentCall where
  msg : Msg
  peers : Peers
  intentId : Word
  nullifier : Word
  useZkGPT : Bool

namespace IntentCall

/-- The checks before the proof. -/
def Ready (c : IntentCall) (s : State) : Prop :=
  c.msg.holds .relayer = true ∧ s.paused = false ∧ (s.intents c.intentId).submittedAt ≠ 0
    ∧ (s.intents c.intentId).status = .completed ∧ s.usedNullifiers c.nullifier = false

/-- The call asks the zkGPT verifier. -/
def AsksZkGPT (c : IntentCall) (s : State) : Prop := c.useZkGPT = true ∧ s.zkVerifierZkGPT ≠ 0

instance (c : IntentCall) (s : State) : Decidable (c.AsksZkGPT s) := instDecidableAnd

def mark (c : IntentCall) (w : World) : World :=
  w.write (w.state.put { w.state.circuit with
    usedNullifiers := update w.state.circuit.usedNullifiers c.nullifier true })

theorem mark_spent (c : IntentCall) (w : World) : SpentTheta c.nullifier (c.mark w) := update_self ..

/-- What follows the proof cannot fail. -/
def close (c : IntentCall) (keccak256 : List UInt8 → Word) (p : Peers) (w : World) : World :=
  tagFeeOrigin keccak256 c.intentId p (w.write (w.state.put (markSettled c.msg c.intentId c.nullifier w.state.circuit)))

theorem close_spent (c : IntentCall) (h : SpentTheta n w) : SpentTheta n (c.close keccak256 p w) := by
  have htagged : ∃ calls, c.close keccak256 p w = Trace.run (play keccak256)
      (w.write (w.state.put (markSettled c.msg c.intentId c.nullifier w.state.circuit))) calls := notifyIf_eq _ _ _
  obtain ⟨calls, hcalls⟩ := htagged
  rw [hcalls]
  exact calls_kept calls (put_kept rfl h)

theorem settle_ok_iff {c : IntentCall} : settleIntent keccak256 c.msg c.intentId c.nullifier c.useZkGPT p w = .ok w' ↔
      c.Ready w.state.circuit ∧ ∃ w1, verifyProof keccak256 c.useZkGPT p (c.mark w) = .ok w1
        ∧ w' = c.close keccak256 p w1 := by
  rw [settleIntent, onlyRole, guarded_iff, guarded_iff, guarded_iff, guarded_iff, guarded_iff, bind_iff]
  constructor
  · rintro ⟨hrole, hpaused, hfound, hstatus, hunused, w1, hverify, hclose⟩
    exact ⟨⟨Bool.not_eq_false _ ▸ hrole, Bool.eq_false_iff.mpr hpaused, hfound, not_not.mp hstatus,
      Bool.eq_false_iff.mpr hunused⟩, w1, hverify, (Except.ok.inj hclose).symm⟩
  · rintro ⟨⟨hrole, hpaused, hfound, hstatus, hunused⟩, w1, hverify, rfl⟩
    exact ⟨ne_false_of_eq_true hrole, ne_true_of_eq_false hpaused, hfound, not_not.mpr hstatus,
      ne_true_of_eq_false hunused, w1, hverify, rfl⟩

theorem settle_ne {c : IntentCall} (h : settleIntent keccak256 c.msg c.intentId c.nullifier c.useZkGPT p w = .ok w') :
    w' ≠ w := by
  intro hsame
  obtain ⟨⟨-, -, -, -, hunused⟩, w1, hverify, rfl⟩ := settle_ok_iff.mp h
  obtain ⟨calls, rfl⟩ := askIf_ok hverify
  have hasked : SpentTheta c.nullifier (Trace.run (play keccak256) (c.mark w) calls) :=
    calls_kept calls (c.mark_spent w)
  have hspent : SpentTheta c.nullifier (c.close keccak256 p (Trace.run (play keccak256) (c.mark w) calls)) :=
    c.close_spent hasked
  rw [hsame] at hspent
  exact absurd (hunused.symm.trans hspent) Bool.false_ne_true

end IntentCall

end Theta

/-! ## The circuits and their verifier -/

/-- Both circuits, and the contract that is their `zkVerifier`. -/
structure Chains where
  agents : A2ACircuit.World
  inference : ThetaCircuit.World
  verifier : ZKVerifier.World

/-- The proof a call comes with, and how the gateway answers to it. -/
structure Submission where
  msg : ZKVerifier.Msg
  peers : ZKVerifier.Peers
  publicValues : List UInt8
  proof : List UInt8

/-- A call of either circuit that asks for a proof. -/
inductive Settlement where
  | agent (c : AgentCall)
  | intent (c : IntentCall)

/-- The success flag of a call. -/
def succeeded {ε α : Type} : Except ε α → Bool
  | .ok _ => true
  | .error _ => false

theorem succeeded_iff {ε α : Type} {x : Except ε α} : succeeded x = true ↔ ∃ a, x = .ok a := by
  cases x with
  | ok a => exact ⟨fun _ => ⟨a, rfl⟩, fun _ => rfl⟩
  | error e => exact ⟨fun h => (nomatch h), fun h => (nomatch h.choose_spec)⟩

namespace Settlement

def zkVerifier (k : Settlement) (s : Chains) : Address :=
  match k with
  | .agent _ => s.agents.state.circuit.zkVerifier
  | .intent _ => s.inference.state.circuit.zkVerifier

def nullifier : Settlement → Word
  | .agent c => c.nullifier
  | .intent c => c.nullifier

def AsksZkGPT (k : Settlement) (s : Chains) : Prop :=
  match k with
  | .agent _ => False
  | .intent c => c.AsksZkGPT s.inference.state.circuit

instance (k : Settlement) (s : Chains) : Decidable (k.AsksZkGPT s) :=
  match k with
  | .agent _ => instDecidableFalse
  | .intent c => inferInstanceAs (Decidable (c.AsksZkGPT s.inference.state.circuit))

/-- The call changes its circuit, or what that holds. -/
def Moved (k : Settlement) (s s' : Chains) : Prop :=
  match k with
  | .agent _ => s'.agents ≠ s.agents
  | .intent _ => s'.inference ≠ s.inference

end Settlement

section Gate

variable (crypto : A2ACircuit.Crypto) (x : Submission) (k : Settlement) (s : Chains)

def Settlement.circuitId : Word :=
  match k with
  | .agent _ => A2ACircuit.circuitId crypto
  | .intent _ => ThetaCircuit.circuitId crypto.keccak256

/-- The call of the SP1 verifier: `verifyProof(CIRCUIT_ID, publicValues, proof, nullifier)`. -/
def callVerifier : Except ZKVerifier.Revert (Bool × ZKVerifier.World) :=
  ZKVerifier.verifyProof crypto.keccak256 x.msg x.peers (k.circuitId crypto)
    x.publicValues x.proof k.nullifier s.verifier

/-- A verifier that reverts stays as it was. -/
def verifierAfter : ZKVerifier.World :=
  match callVerifier crypto x k s with
  | .ok answer => answer.2
  | .error _ => s.verifier

/-- The circuits go by the success flag; what the verifier returns they do not read. -/
def settle : Chains :=
  let reply : Bool := succeeded (callVerifier crypto x k s)
  match k with
  | .agent c =>
    match c.exec { c.peers with verifyProof := ⟨reply, []⟩ } s.agents with
    | .ok w => { s with agents := w, verifier := verifierAfter crypto x k s }
    | .error _ => s
  | .intent c =>
    let p := if k.AsksZkGPT s then c.peers else { c.peers with verifyProof := ⟨reply, []⟩ }
    match ThetaCircuit.settleIntent crypto.keccak256 c.msg c.intentId c.nullifier c.useZkGPT p s.inference with
    | .ok w => { s with
        inference := w
        verifier := if k.AsksZkGPT s then s.verifier else verifierAfter crypto x k s }
    | .error _ => s

/-- The gateway accepts the proof for the key the circuit is registered with, and the
    nullifier is unused in the verifier. -/
def Accepted : Prop :=
  s.verifier.state.circuits (k.circuitId crypto) ≠ 0
  ∧ x.peers.gateway (s.verifier.state.circuits (k.circuitId crypto)) x.publicValues x.proof = .accepts
  ∧ s.verifier.state.usedNullifiers k.nullifier = false

/-- **GATED**: the call moves something only if its proof is accepted. -/
def Gated : Prop := k.Moved s (settle crypto x k s) → Accepted crypto x k s

/-- The SP1 verifier is asked and its gateway rejects the proof, or it is not asked. -/
def Unproven : Prop :=
  if k.AsksZkGPT s then ¬ Accepted crypto x k s
  else x.peers.gateway (s.verifier.state.circuits (k.circuitId crypto)) x.publicValues x.proof = .rejects

/-- The verifier that is asked does not revert. -/
def Answered : Prop :=
  match k with
  | .agent _ => ∃ answer, callVerifier crypto x k s = .ok answer
  | .intent c =>
    if k.AsksZkGPT s then c.peers.verifyProof.ok = true else ∃ answer, callVerifier crypto x k s = .ok answer

/-- The circuit's own checks pass, and what follows the proof can be paid. -/
def Payable : Prop :=
  match k with
  | .agent c => c.Ready s.agents.state.circuit ∧ ∃ w, c.pay c.peers (c.mark s.agents) = .ok w
  | .intent c => c.Ready s.inference.state.circuit

variable {crypto : A2ACircuit.Crypto} {x : Submission} {k : Settlement} {s : Chains}

theorem AgentCall.pay_reply (c : AgentCall) (p : A2ACircuit.Peers) (r : A2ACircuit.Reply) (w : A2ACircuit.World) :
    c.pay { p with verifyProof := r } w = c.pay p w := by
  obtain ⟨m, q, deal, nullifier⟩ := c
  cases deal with
  | settleBid bidId resultHash => rfl
  | claimChannel channelId amount => rfl
  | settleSwarmAgent swarmId agent amount => rfl

/-- A flag is all the agent circuit gets from its verifier. -/
theorem AgentCall.exec_reply_iff {c : AgentCall} {reply : Bool} {w w' : A2ACircuit.World}
    (hverifier : w.state.circuit.zkVerifier ≠ 0) : c.exec { c.peers with verifyProof := ⟨reply, []⟩ } w = .ok w' ↔
      reply = true ∧ c.Ready w.state.circuit ∧ c.pay c.peers (c.mark w) = .ok w' := by
  have hset : (c.mark w).state.circuit.zkVerifier ≠ 0 := hverifier
  rw [AgentCall.exec_ok_iff]
  constructor
  · rintro ⟨hready, w1, hverify, hpay⟩
    rw [A2ACircuit.verifyProof, if_pos hset, ask_ok_iff] at hverify
    obtain ⟨hreply, rfl⟩ := hverify
    rw [AgentCall.pay_reply] at hpay
    exact ⟨hreply, hready, hpay⟩
  · rintro ⟨hreply, hready, hpay⟩
    refine ⟨hready, c.mark w, ?_, ?_⟩
    · rw [A2ACircuit.verifyProof, if_pos hset, ask_ok_iff]
      exact ⟨hreply, rfl⟩
    · rw [AgentCall.pay_reply]
      exact hpay

/-- And all the inference circuit gets from the one it asks. -/
theorem IntentCall.settle_reply_iff {c : IntentCall} {keccak256 : List UInt8 → Word} {p : ThetaCircuit.Peers}
    {w : ThetaCircuit.World} (hverifier : w.state.circuit.zkVerifier ≠ 0) :
    (∃ w', ThetaCircuit.settleIntent keccak256 c.msg c.intentId c.nullifier c.useZkGPT p w = .ok w') ↔
      p.verifyProof.ok = true ∧ c.Ready w.state.circuit := by
  have hset : (if c.useZkGPT ∧ (c.mark w).state.circuit.zkVerifierZkGPT ≠ 0
    then (c.mark w).state.circuit.zkVerifierZkGPT
      else (c.mark w).state.circuit.zkVerifier) ≠ 0 := by
    split
    · rename_i hasks
      exact hasks.2
    · exact hverifier
  constructor
  · rintro ⟨w', h⟩
    obtain ⟨hready, w1, hverify, -⟩ := IntentCall.settle_ok_iff.mp h
    rw [ThetaCircuit.verifyProof, if_pos hset, ask_ok_iff] at hverify
    exact ⟨hverify.1, hready⟩
  · rintro ⟨hreply, hready⟩
    have hverify : ThetaCircuit.verifyProof keccak256 c.useZkGPT p (c.mark w)
        = .ok (Trace.run (ThetaCircuit.play keccak256) (c.mark w) p.verifyProof.calls) := by
      rw [ThetaCircuit.verifyProof, if_pos hset, ask_ok_iff]
      exact ⟨hreply, rfl⟩
    exact ⟨_, IntentCall.settle_ok_iff.mpr ⟨hready, _, hverify, rfl⟩⟩

/-- A call moves something exactly when it is answered and can be paid. -/
theorem settle_moved_iff (hverifier : k.zkVerifier s ≠ 0) :
    k.Moved s (settle crypto x k s) ↔ Answered crypto x k s ∧ Payable k s := by
  cases k with
  | agent c =>
    have hmoved : Settlement.Moved (.agent c) s (settle crypto x (.agent c) s) ↔
        ∃ w, c.exec { c.peers with verifyProof := ⟨succeeded (callVerifier crypto x (.agent c) s), []⟩ } s.agents
          = .ok w := by
      rw [settle, Settlement.Moved]
      constructor
      · intro h
        split at h
        · rename_i w hexec
          exact ⟨w, hexec⟩
        · exact absurd rfl h
      · rintro ⟨w, hexec⟩
        rw [hexec]
        exact AgentCall.exec_ne hexec
    rw [hmoved, Answered, Payable, ← succeeded_iff (x := callVerifier crypto x (.agent c) s)]
    constructor
    · rintro ⟨w, hexec⟩
      obtain ⟨hreply, hready, hpay⟩ := (AgentCall.exec_reply_iff hverifier).mp hexec
      exact ⟨hreply, hready, w, hpay⟩
    · rintro ⟨hreply, hready, w, hpay⟩
      exact ⟨w, (AgentCall.exec_reply_iff hverifier).mpr ⟨hreply, hready, hpay⟩⟩
  | intent c =>
    have hmoved : Settlement.Moved (.intent c) s (settle crypto x (.intent c) s) ↔
        ∃ w, ThetaCircuit.settleIntent crypto.keccak256 c.msg c.intentId c.nullifier c.useZkGPT
          (if Settlement.AsksZkGPT (.intent c) s then c.peers
            else { c.peers with verifyProof := ⟨succeeded (callVerifier crypto x (.intent c) s), []⟩ }) s.inference
          = .ok w := by
      rw [settle, Settlement.Moved]
      constructor
      · intro h
        split at h
        · rename_i w hexec
          exact ⟨w, hexec⟩
        · exact absurd rfl h
      · rintro ⟨w, hexec⟩
        rw [hexec]
        exact IntentCall.settle_ne hexec
    rw [hmoved, IntentCall.settle_reply_iff hverifier, Answered, Payable,
      ← succeeded_iff (x := callVerifier crypto x (.intent c) s)]
    by_cases hasks : Settlement.AsksZkGPT (.intent c) s
    · rw [if_pos hasks, if_pos hasks]
    · rw [if_neg hasks, if_neg hasks]

theorem callVerifier_ok (hgateway : s.verifier.state.sp1Gateway ≠ 0) {answer : Bool × ZKVerifier.World}
    (h : callVerifier crypto x k s = .ok answer)
    (hsure : x.peers.gateway (s.verifier.state.circuits (k.circuitId crypto)) x.publicValues x.proof ≠ .rejects) :
    Accepted crypto x k s := by
  rw [callVerifier, ZKVerifier.verifyProof, guarded_iff] at h
  obtain ⟨hunused, -, hreply⟩ := NullifierLedger.prove_ok hgateway (show _ = Except.ok (answer.1, answer.2) from h.2)
  obtain ⟨-, -, hkey⟩ := bind_iff.mp h.2
  rw [guarded_iff] at hkey
  rcases hreply with ⟨-, hrejects, -⟩ | ⟨-, haccepts, -⟩
  · exact absurd hrejects hsure
  · exact ⟨hkey.1, haccepts, hunused⟩

/-- **GATED WHEN**: a call moves nothing without an accepted proof exactly when no
    unproven submission is answered by a success flag and can be paid. -/
theorem settlement_gated (hverifier : k.zkVerifier s ≠ 0) (hgateway : s.verifier.state.sp1Gateway ≠ 0) :
    Gated crypto x k s ↔ ¬ Unproven crypto x k s ∨ ¬ Answered crypto x k s ∨ ¬ Payable k s := by
  rw [Gated, settle_moved_iff hverifier]
  constructor
  · intro h
    by_cases hboth : Answered crypto x k s ∧ Payable k s
    · refine .inl fun hunproven => ?_
      have haccepted : Accepted crypto x k s := h hboth
      rw [Unproven] at hunproven
      split at hunproven
      · exact hunproven haccepted
      · exact absurd (hunproven.symm.trans haccepted.2.1) (by decide)
    · exact .inr (not_and_or.mp hboth)
  · rintro hcase ⟨hanswered, hpayable⟩
    rcases hcase with hproven | hsilent | hunpaid
    · rw [Unproven] at hproven
      by_cases hasks : k.AsksZkGPT s
      · rw [if_pos hasks] at hproven
        exact not_not.mp hproven
      · rw [if_neg hasks] at hproven
        have hanswer : ∃ answer, callVerifier crypto x k s = .ok answer := by
          cases k with
          | agent c => exact hanswered
          | intent c =>
            rw [Answered, if_neg hasks] at hanswered
            exact hanswered
        obtain ⟨answer, hanswer⟩ := hanswer
        exact callVerifier_ok hgateway hanswer hproven
    · exact absurd hanswered hsilent
    · exact absurd hpayable hunpaid

end Gate

/-! ## A channel claimed without a proof -/

/-- Carol's channel to Bob with 10000, in a circuit with a verifier that has a gateway
    and a key for the circuit. -/
def sampleChains : Chains where
  agents := A2ACircuit.run A2ACustody.sampleCrypto (A2ACircuit.start 0 0x5B1 0 fun _ => 0) [A2ACustody.sampleChannel]
  inference := ThetaCircuit.start 0 0x5B1 fun _ => 0
  verifier := ZKVerifier.run A2ACustody.sampleCrypto.keccak256 (ZKVerifier.start 0x6A7E 1700000000)
    [NullifierLedger.sampleTx 0xAD (.openCall (.registerCircuit A2ACustody.sampleCircuitId 0xABC))]

def sampleClaim : Settlement := .agent {
  msg := (A2ACustody.sampleTx 0xB0B (.claimChannel A2ACustody.carolChannel 10000 7)).msg
  peers := (A2ACustody.sampleTx 0xB0B (.claimChannel A2ACustody.carolChannel 10000 7)).peers
  deal := .claimChannel A2ACustody.carolChannel 10000
  nullifier := 7 }

/-- The sample gateway accepts every proof but the empty one. -/
def sampleSubmission (proof : List UInt8) : Submission where
  msg := (NullifierLedger.sampleTx 0xA2A (.verifyProof A2ACustody.sampleCircuitId [] proof 7)).msg
  peers := NullifierLedger.samplePeers
  publicValues := []
  proof := proof

theorem settlement_gated_sample : Gated A2ACustody.sampleCrypto (sampleSubmission [1]) sampleClaim sampleChains := by
  refine (settlement_gated (by decide +kernel) (by decide +kernel)).mpr (.inl ?_)
  show ¬ (sampleSubmission [1]).peers.gateway _ [] [1] = .rejects
  decide

/-- Bob claims the channel with a proof the gateway rejects, and is paid. -/
theorem claimed_unproven : sampleClaim.zkVerifier sampleChains ≠ 0 ∧ sampleChains.verifier.state.sp1Gateway ≠ 0
      ∧ sampleChains.agents.holdings .native = 10000
      ∧ (settle A2ACustody.sampleCrypto (sampleSubmission []) sampleClaim sampleChains).agents.holdings .native = 50
      ∧ (settle A2ACustody.sampleCrypto (sampleSubmission []) sampleClaim sampleChains).verifier.state.totalFailed = 1
      ∧ ¬ Accepted A2ACustody.sampleCrypto (sampleSubmission []) sampleClaim sampleChains
      ∧ ¬ Gated A2ACustody.sampleCrypto (sampleSubmission []) sampleClaim sampleChains := by
  have hbefore : sampleChains.agents.holdings .native = 10000 := by decide +kernel
  have hafter : (settle A2ACustody.sampleCrypto (sampleSubmission []) sampleClaim sampleChains).agents.holdings .native
      = 50 := by decide +kernel
  have hrejected : ¬ Accepted A2ACustody.sampleCrypto (sampleSubmission []) sampleClaim sampleChains := by
    intro h
    exact absurd h.2.1 (by decide)
  refine ⟨by decide +kernel, by decide +kernel, hbefore, hafter, by decide +kernel, hrejected, fun h => ?_⟩
  refine hrejected (h fun hsame => ?_)
  rw [hsame, hbefore] at hafter
  exact absurd hafter (by decide)

end ProofGate
