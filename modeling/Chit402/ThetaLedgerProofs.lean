import Chit402.DrawnIdProofs
import Chit402.FiniteSumProofs
import Chit402.ThetaCircuitProofs
import Mathlib.Data.FinEnum

/-! # The books of the Theta circuit

    What the circuit owes, and what its records have in common:

    The calls others make back into the contract keep all three. -/

namespace ThetaLedger

open ExceptFlow Solidity Custody DrawnId FiniteSum ThetaCircuit Function Finset Relation

variable {keccak256 : List UInt8 → Word}

/-! ## What is owed -/

/-- The payment of an intent that is neither settled nor failed. -/
def outstanding (i : Intent) : Nat := if i.status = .settled ∨ i.status = .failed then 0 else i.payment

def due (s : Chain) (a : Asset) (id : Word) : Nat :=
  if s.paidIn id = a then outstanding (s.circuit.intents id) else 0

/-- What spenders may still take of the contract's tokens. -/
def allowances (s : Chain) : Asset → Nat
  | .native => 0
  | .erc20 token => ∑ spender : Address, s.approved token spender

def owed (s : Chain) (a : Asset) : Nat := ∑ id : Word, due s a id + allowances s a

variable {s t u : Chain} {i : Intent} {m : Msg} {call : OpenCall} {c c' : State} {id : Word} {w w' : World}

theorem outstanding_of_open (h : ¬ (i.status = .settled ∨ i.status = .failed)) : outstanding i = i.payment := if_neg h

theorem outstanding_of_final (h : i.status = .settled ∨ i.status = .failed) : outstanding i = 0 := if_pos h

theorem owed_change (s s' : Chain) (id : Word) (hpaid : ∀ x, x ≠ id → s'.paidIn x = s.paidIn x)
    (hintents : ∀ x, x ≠ id → s'.circuit.intents x = s.circuit.intents x) (happroved : s'.approved = s.approved)
    (a : Asset) : owed s' a + due s a id = owed s a + due s' a id := by
  have hsum := sum_change (mem_univ id) (f := due s a) (g := due s' a) fun x hx => by
    rw [due, due, hpaid x hx, hintents x hx]
  have hallow : allowances s' a = allowances s a := by
    cases a with
    | native => rfl
    | erc20 token => rw [allowances, allowances, happroved]
  rw [owed, owed, hallow]
  omega

theorem owed_approve (token spender : Address) (amount : Nat) (s : Chain) (a : Asset) :
    owed (approve token spender amount s) a + (Pi.single (.erc20 token) (s.approved token spender) : Asset → Nat) a
      = owed s a + (Pi.single (.erc20 token) amount : Asset → Nat) a := by
  have hdue : ∑ id : Word, due (approve token spender amount s) a id = ∑ id : Word, due s a id := rfl
  have hallow : allowances (approve token spender amount s) a
        + (Pi.single (.erc20 token) (s.approved token spender) : Asset → Nat) a
      = allowances s a + (Pi.single (.erc20 token) amount : Asset → Nat) a := by
    cases a with
    | native => rfl
    | erc20 t =>
      have hrow := sum_update_row s.approved token t spender amount
      simp only [Pi.single_apply] at hrow
      simp only [Pi.single_apply, Asset.erc20.injEq]
      exact hrow
  rw [owed, owed, hdue]
  omega

/-! ## Status -/

/-- **THE LIFE CYCLE**: submitted, completed, settled; failed from the first two. -/
inductive Moves : IntentStatus → IntentStatus → Prop where
  | submit : Moves .none .submitted
  | complete : Moves .submitted .completed
  | settle : Moves .completed .settled
  | failSubmitted : Moves .submitted .failed
  | failCompleted : Moves .completed .failed

/-- Every intent moves along the life cycle, maybe not at all. -/
def Follows (s s' : Chain) : Prop :=
  ∀ id, ReflTransGen Moves (s.circuit.intents id).status (s'.circuit.intents id).status

theorem Follows.refl (s : Chain) : Follows s s := fun _ => .refl

theorem Follows.trans (h1 : Follows s t) (h2 : Follows t u) : Follows s u :=
  fun id => (h1 id).trans (h2 id)

theorem eq_of_final {a b : IntentStatus} (hpath : ReflTransGen Moves a b) (h : a = .settled ∨ a = .failed) : b = a := by
  induction hpath with
  | refl =>
    rfl
  | tail _ hmove ih =>
    rcases h with rfl | rfl
    · rw [ih] at hmove
      cases hmove
    · rw [ih] at hmove
      cases hmove

theorem follows_of_move {s' : Chain} (id : Word)
    (hmove : ReflTransGen Moves (s.circuit.intents id).status (s'.circuit.intents id).status)
    (hrest : ∀ x, x ≠ id → s'.circuit.intents x = s.circuit.intents x) : Follows s s' := by
  intro x
  by_cases hx : x = id
  · subst hx
    exact hmove
  · rw [hrest x hx]

/-! ## The books -/

def Live (status : IntentStatus) : Prop :=
  status = .submitted ∨ status = .completed ∨ status = .settled ∨ status = .failed

/-- A refund names a failed intent, its asset, its requester and its payment. -/
structure Refunded (s : Chain) (r : Refund) : Prop where
  failed : (s.circuit.intents r.intentId).status = .failed
  inKind : r.asset = s.paidIn r.intentId
  requester : r.requester = (s.circuit.intents r.intentId).requester
  amount : r.amount = (s.circuit.intents r.intentId).payment

structure Books (keccak256 : List UInt8 → Word) (s : Chain) : Prop where
  drawn : Drawn keccak256 s.drawn s.circuit.intentCount fun id => (s.circuit.intents id).submittedAt ≠ 0
  blank : ∀ id, (s.circuit.intents id).submittedAt = 0 → s.circuit.intents id = noIntent
  live : ∀ id, (s.circuit.intents id).submittedAt ≠ 0 → Live (s.circuit.intents id).status
  refunded : ∀ r ∈ s.refunds, Refunded s r
  once : (s.refunds.map Refund.intentId).Nodup

/-- A change to a submitted record that keeps who paid what. -/
structure Amends (i i' : Intent) : Prop where
  submitted : i.submittedAt ≠ 0
  payment : i'.payment = i.payment
  requester : i'.requester = i.requester
  submittedAt : i'.submittedAt = i.submittedAt
  live : Live i'.status
  failed : i.status = .failed → i'.status = .failed

/-- The books stay in order when one record is amended. -/
theorem Books.amend (h : Books keccak256 s) (hamend : Amends (s.circuit.intents id) i)
    (hintents : c.intents = update s.circuit.intents id i) (hcount : c.intentCount = s.circuit.intentCount) :
    Books keccak256 (s.put c) := by
  have hid : c.intents id = i := by rw [hintents, update_self]
  have hne : ∀ x, x ≠ id → c.intents x = s.circuit.intents x := fun x hx => by rw [hintents, update_of_ne hx]
  have hstamp : ∀ x, (c.intents x).submittedAt = (s.circuit.intents x).submittedAt := by
    intro x
    by_cases hx : x = id
    · rw [hx, hid, hamend.submittedAt]
    · rw [hne x hx]
  refine ⟨?_, fun x hx => ?_, fun x hx => ?_, fun r hr => ?_, h.once⟩
  · show Drawn keccak256 s.drawn c.intentCount fun x => (c.intents x).submittedAt ≠ 0
    rw [hcount]
    exact h.drawn.mono fun x hx => by rwa [hstamp x] at hx
  · show c.intents x = noIntent
    have hx' : (s.circuit.intents x).submittedAt = 0 := by rw [← hstamp x]; exact hx
    rw [hne x fun heq => hamend.submitted (heq ▸ hx')]
    exact h.blank x hx'
  · show Live (c.intents x).status
    by_cases heq : x = id
    · rw [heq, hid]
      exact hamend.live
    · rw [hne x heq]
      exact h.live x (by rw [← hstamp x]; exact hx)
  · have hold := h.refunded r hr
    show Refunded (s.put c) r
    by_cases heq : r.intentId = id
    · refine ⟨?_, hold.inKind, ?_, ?_⟩
      · show (c.intents r.intentId).status = .failed
        rw [heq, hid]
        exact hamend.failed (heq ▸ hold.failed)
      · show r.requester = (c.intents r.intentId).requester
        rw [heq, hid, hamend.requester, hold.requester, heq]
      · show r.amount = (c.intents r.intentId).payment
        rw [heq, hid, hamend.payment, hold.amount, heq]
    · have hsame : c.intents r.intentId = s.circuit.intents r.intentId := hne _ heq
      exact ⟨hsame ▸ hold.failed, hold.inKind, hsame ▸ hold.requester, hsame ▸ hold.amount⟩

/-- Writes elsewhere leave the books in order. -/
theorem Books.config {s : Chain} {c : State} (h : Books keccak256 s) (hintents : c.intents = s.circuit.intents)
    (hcount : c.intentCount = s.circuit.intentCount) : Books keccak256 (s.put c) := by
  obtain ⟨hdrawn, hblank, hlive, hrefunded, honce⟩ := h
  refine ⟨?_, ?_, ?_, fun r hr => ?_, honce⟩
  · show Drawn keccak256 s.drawn c.intentCount fun x => (c.intents x).submittedAt ≠ 0
    rw [hcount, hintents]
    exact hdrawn
  · show ∀ id, (c.intents id).submittedAt = 0 → c.intents id = noIntent
    rw [hintents]
    exact hblank
  · show ∀ id, (c.intents id).submittedAt ≠ 0 → Live (c.intents id).status
    rw [hintents]
    exact hlive
  · have hold := hrefunded r hr
    have hsame : c.intents r.intentId = s.circuit.intents r.intentId := by rw [hintents]
    exact ⟨hsame ▸ hold.failed, hold.inKind, hsame ▸ hold.requester, hsame ▸ hold.amount⟩

theorem owed_config (hintents : c.intents = s.circuit.intents) (a : Asset) : owed (s.put c) a = owed s a := by
  show ∑ id : Word, (if s.paidIn id = a then outstanding (c.intents id) else 0) + allowances s a = owed s a
  rw [hintents]
  rfl

theorem owed_amend (s : Chain) (hintents : c.intents = update s.circuit.intents id i) (a : Asset) :
    owed (s.put c) a + due s a id = owed s a + if s.paidIn id = a then outstanding i else 0 := by
  have hdue : due (s.put c) a id = if s.paidIn id = a then outstanding i else 0 := by
    show (if s.paidIn id = a then outstanding (c.intents id) else 0) = _
    rw [hintents, update_self]
  rw [← hdue]
  refine owed_change s (s.put c) id (fun _ _ => rfl) (fun x hx => ?_) rfl a
  show c.intents x = _
  rw [hintents, update_of_ne hx]

/-! ## Calls made back -/

/-- A report that completes an intent. -/
structure Completes (i i' : Intent) : Prop extends Amends i i' where
  waiting : i.status = .submitted ∨ i.status = .processing
  completed : i'.status = .completed

/-- What the calls that write only the contract's storage do: at most complete an intent. -/
def Reports (c c' : State) : Prop :=
  c'.intentCount = c.intentCount ∧ (c'.intents = c.intents
    ∨ ∃ id i, Completes (c.intents id) i ∧ c'.intents = update c.intents id i)

theorem completeIntent_ok {intentId outputHash modelHash : Word} {latencyMs : Nat}
    (h : completeIntent m intentId outputHash modelHash latencyMs c = .ok c') : Reports c c' := by
  rw [completeIntent, onlyRole, guarded_iff, guarded_iff, guarded_iff] at h
  obtain ⟨-, hfound, hstatus, h⟩ := h
  cases h
  have hwaiting : (c.intents intentId).status = .submitted ∨ (c.intents intentId).status = .processing := by
    by_contra hnot
    exact hstatus (not_or.mp hnot)
  refine ⟨rfl, .inr ⟨intentId, { c.intents intentId with
    outputHash := outputHash
    modelHash := modelHash
    latencyMs := latencyMs
    status := .completed
    completedAt := m.timestamp }, ?_, rfl⟩⟩
  refine ⟨⟨hfound, rfl, rfl, rfl, .inr (.inl rfl), fun hf => ?_⟩, hwaiting, rfl⟩
  rcases hwaiting with hw | hw
  · rw [hf] at hw
    cases hw
  · rw [hf] at hw
    cases hw

theorem execConfig_ok (call : OpenCall) (c : State) : Ensures (Reports c) (execConfig keccak256 m call c) := by
  cases call with
  | registerService | updateService | registerPreset | updatePreset | setGpuMultiplier | setFee | pause | unpause =>
    exact ensures_skip fun _ => ensures_skip fun _ => ensures_ok ⟨rfl, .inl rfl⟩
  | completeIntent intentId outputHash modelHash latencyMs => exact fun _ h => completeIntent_ok h
  | attestEdgeCloudNode intentId nodeId gpu used tag =>
    iterate 6 refine ensures_skip fun _ => ?_
    exact ensures_ok ⟨rfl, .inl rfl⟩
  | setRevenueSplitter | setZKVerifier | setZKVerifierZkGPT => exact ensures_skip fun _ => ensures_ok ⟨rfl, .inl rfl⟩
  | setTdropConfig token discountBps rate =>
    exact ensures_skip fun _ => ensures_skip fun _ => ensures_skip fun _ => ensures_ok ⟨rfl, .inl rfl⟩
  | receive | sendTokens | takeApproved => exact ensures_ok ⟨rfl, .inl rfl⟩

/-- What a call without the guard does to the contract and its holdings. -/
inductive OpenStep (w : World) : World → Prop where
  | config {c : State} (h : Reports w.state.circuit c) :
      OpenStep w (w.write (w.state.put c))
  | credit (a : Asset) (amount : Nat) : OpenStep w (w.credit a amount)
  | taken {token spender : Address} {amount : Nat} (happroved : amount ≤ w.state.approved token spender)
      (hheld : amount ≤ w.holdings (.erc20 token)) :
      OpenStep w ((w.debit (.erc20 token) amount).write
        (approve token spender (w.state.approved token spender - amount) w.state))

theorem execOpen_ok (h : execOpen keccak256 m call w = .ok w') : OpenStep w w' := by
  have hconfig : ∀ {call : OpenCall},
      (execConfig keccak256 m call w.state.circuit >>= fun c =>
        Except.ok (w.write (w.state.put c))) = Except.ok w' → OpenStep w w' := by
    intro call h
    obtain ⟨c, hc, h⟩ := bind_iff.mp h
    cases h
    exact .config (execConfig_ok _ _ c hc)
  cases call with
  | receive | sendTokens =>
    cases h
    exact .credit _ _
  | takeApproved token amount =>
    rw [execOpen, ThetaCircuit.takeApproved, guarded_iff] at h
    obtain ⟨hcan, h⟩ := h
    cases h
    obtain ⟨happroved, hheld⟩ := not_or.mp hcan
    exact .taken (Nat.not_lt.mp happroved) (Nat.not_lt.mp hheld)
  | _ => exact hconfig h

theorem play_step (keccak256 : List UInt8 → Word) (w : World) (n : Msg × OpenCall) :
    play keccak256 w n = w ∨ OpenStep w (play keccak256 w n) := by
  rw [play]
  split
  · rename_i h
    exact .inr (execOpen_ok h)
  · exact .inl rfl

/-- **CALLED BACK**: what a call back leaves standing. -/
structure Stands (s s' : Chain) : Prop where
  drawn : s'.drawn = s.drawn
  follows : Follows s s'
  completed : ∀ id, (s.circuit.intents id).status = .completed → s'.circuit.intents id = s.circuit.intents id

theorem Stands.refl (s : Chain) : Stands s s := ⟨rfl, .refl s, fun _ _ => rfl⟩

theorem Stands.trans (h1 : Stands s t) (h2 : Stands t u) : Stands s u := by
  refine ⟨h2.drawn.trans h1.drawn, h1.follows.trans h2.follows, fun id h => ?_⟩
  have ht := h1.completed id h
  rw [h2.completed id (by rw [ht]; exact h), ht]

theorem OpenStep.drawn (hstep : OpenStep w w') : w'.state.drawn = w.state.drawn := by
  cases hstep with
  | config => rfl
  | credit => rfl
  | taken => rfl

theorem OpenStep.keeps (hstep : OpenStep w w') (h : Books keccak256 w.state) :
    Books keccak256 w'.state ∧ Stands w.state w'.state := by
  cases hstep with
  | @config c hreport =>
    obtain ⟨hcount, hintents | ⟨id, i, hcompletes, hintents⟩⟩ := hreport
    · refine ⟨h.config hintents hcount, rfl, fun id => ?_, fun id _ => ?_⟩
      · show ReflTransGen Moves _ (c.intents id).status
        rw [hintents]
      · show c.intents id = _
        rw [hintents]
    · refine ⟨h.amend hcompletes.toAmends hintents hcount, rfl, ?_, fun x hx => ?_⟩
      · refine follows_of_move id ?_ fun x hx => ?_
        · show ReflTransGen Moves _ (c.intents id).status
          rw [hintents, update_self, hcompletes.completed]
          rcases h.live id hcompletes.submitted with hs | hs | hs | hs
          · rw [hs]
            exact .single .complete
          · rw [hs]
          · rcases hcompletes.waiting with hw | hw
            · cases hs.symm.trans hw
            · cases hs.symm.trans hw
          · rcases hcompletes.waiting with hw | hw
            · cases hs.symm.trans hw
            · cases hs.symm.trans hw
        · show c.intents x = _
          rw [hintents, update_of_ne hx]
      · show c.intents x = _
        rw [hintents, update_of_ne]
        rintro rfl
        rcases hcompletes.waiting with hw | hw
        · cases hx.symm.trans hw
        · cases hx.symm.trans hw
  | credit a amount =>
    exact ⟨h, .refl _⟩
  | taken happroved hheld =>
    exact ⟨⟨h.drawn, h.blank, h.live, fun r hr => ⟨(h.refunded r hr).failed, (h.refunded r hr).inKind,
      (h.refunded r hr).requester, (h.refunded r hr).amount⟩, h.once⟩, rfl, fun _ => .refl, fun _ _ => rfl⟩

/-- Completing an intent leaves it owed. -/
theorem owed_report (hreport : Reports s.circuit c) (a : Asset) : owed (s.put c) a = owed s a := by
  obtain ⟨-, hintents | ⟨id, i, hcompletes, hintents⟩⟩ := hreport
  · exact owed_config hintents a
  · have hchange := owed_amend s hintents a
    have hold : ¬ ((s.circuit.intents id).status = .settled ∨ (s.circuit.intents id).status = .failed) := by
      rcases hcompletes.waiting with hw | hw
      · rw [hw]
        decide
      · rw [hw]
        decide
    have hnew : ¬ (i.status = .settled ∨ i.status = .failed) := by
      rw [hcompletes.completed]
      decide
    rw [due, outstanding_of_open hold, outstanding_of_open hnew, hcompletes.payment] at hchange
    omega

theorem OpenStep.covers {pending : Asset → Nat} (hstep : OpenStep w w') (h : Covers (Books keccak256) owed pending w) :
    Covers (Books keccak256) owed pending w' := by
  have hbooks := (hstep.keeps h.books).1
  cases hstep with
  | config hreport =>
    exact h.write hbooks fun a => by rw [owed_report hreport]
  | credit a amount =>
    exact (h.credit a amount).drop
  | @taken token spender amount happroved hheld =>
    have hwrite : Covers (Books keccak256) owed (pending + Pi.single (.erc20 token) amount)
        (w.write (approve token spender (w.state.approved token spender - amount) w.state)) := by
      refine h.write hbooks fun a => ?_
      have hchange := owed_approve token spender (w.state.approved token spender - amount) w.state a
      rw [Pi.add_apply]
      by_cases ha : a = .erc20 token
      · subst ha
        rw [Pi.single_eq_same, Pi.single_eq_same] at hchange
        rw [Pi.single_eq_same]
        omega
      · rw [Pi.single_eq_of_ne ha, Pi.single_eq_of_ne ha] at hchange
        rw [Pi.single_eq_of_ne ha]
        omega
    exact hwrite.debit

end ThetaLedger
