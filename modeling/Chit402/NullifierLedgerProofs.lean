import Chit402.ZKVerifierProofs

/-! # The nullifier ledger

    What the verifier counts, calls verified and enters below a parent, over
    whole runs.  Two entry points leave it to the caller that this adds up:
    a rollup may name an inner nullifier twice, or itself, and a recursive
    proof may name any spent parent at any depth. -/

namespace NullifierLedger

open ExceptFlow Solidity Function ZKVerifier

/-! ## The ledger -/

/-- The nullifier that an event counts towards `totalVerified`. -/
def countedNullifier : Event → Option Word
  | .proofVerified _ nullifier _ _ _ => some nullifier
  | .composedCallVerified _ nullifier _ _ _ _ _ => some nullifier
  | .recursiveProofVerified nullifier _ _ _ _ => some nullifier
  | _ => none

def counted (w : World) : List Word := w.log.filterMap countedNullifier

/-- The gateway accepted a proof submitted for `n`. -/
def Accepted (w : World) (n : Word) : Prop := ∃ p ∈ w.proofs, n ∈ p.nullifiers

/-- `n` was verified: here, or elsewhere and received. -/
def Vouched (w : World) (n : Word) : Prop := Accepted w n ∨ n ∈ w.received

/-- **THE LEDGER IS SOUND**: no nullifier counts twice, what is recorded as verified had
    its proof accepted, and the parents of entries were verified, at smaller depths. -/
structure Sound (w : World) : Prop where
  total : w.state.totalVerified = (counted w).length
  once : (counted w).Nodup
  composed : ∀ n, w.state.composedCalls n ≠ noCall → Accepted w n
  recursive : ∀ n, (w.state.recursiveNullifiers n).verified = true → Accepted w n
  parents : ∀ n, (w.state.recursiveNullifiers n).verified = true →
    (w.state.recursiveNullifiers n).parentNullifier ≠ 0 →
    Vouched w (w.state.recursiveNullifiers n).parentNullifier
    ∧ (w.state.recursiveNullifiers (w.state.recursiveNullifiers n).parentNullifier).depth
      < (w.state.recursiveNullifiers n).depth

/-- The sound ledger, and that everything it mentions is spent. -/
structure Ledger (w : World) : Prop extends Sound w where
  spent : ∀ n ∈ counted w, w.state.usedNullifiers n = true
  named : ∀ n, Accepted w n → w.state.usedNullifiers n = true
  arrived : ∀ n ∈ w.received, w.state.usedNullifiers n = true
  fresh : ∀ n, w.state.usedNullifiers n = false → w.state.recursiveNullifiers n = noEntry

/-- A new entry of `n`: its proof was accepted, and a parent it names is in order. -/
structure Entered (w w' : World) (n : Word) : Prop where
  unused : w.state.usedNullifiers n = false
  used : w'.state.usedNullifiers n = true
  accepted : Accepted w' n
  parent : (w'.state.recursiveNullifiers n).parentNullifier ≠ 0 →
    Vouched w' (w'.state.recursiveNullifiers n).parentNullifier
    ∧ (w'.state.recursiveNullifiers (w'.state.recursiveNullifiers n).parentNullifier).depth
      < (w'.state.recursiveNullifiers n).depth

/-- From `w` to `w'` the unspent nullifiers `ns` are counted. -/
structure Advance (ns : List Word) (w w' : World) : Prop where
  total : w'.state.totalVerified = w.state.totalVerified + ns.length
  log : counted w' = counted w ++ ns
  nodup : ns.Nodup
  unused : ∀ n ∈ ns, w.state.usedNullifiers n = false
  used : ∀ n ∈ ns, w'.state.usedNullifiers n = true
  keeps : ∀ n, w.state.usedNullifiers n = true → w'.state.usedNullifiers n = true
  proofs : ∀ p ∈ w.proofs, p ∈ w'.proofs
  named : ∀ p ∈ w'.proofs, p ∈ w.proofs ∨ ∀ n ∈ p.nullifiers, w'.state.usedNullifiers n = true
  received : ∀ n ∈ w.received, n ∈ w'.received
  arrived : ∀ n ∈ w'.received, n ∈ w.received ∨ w'.state.usedNullifiers n = true
  composed : ∀ n, w'.state.composedCalls n = w.state.composedCalls n ∨ Accepted w' n
  entries : ∀ n, w'.state.recursiveNullifiers n = w.state.recursiveNullifiers n ∨ Entered w w' n

variable {w w' : World} {ns : List Word}

variable {call : OpenCall} {s : State} {tx : Tx} {n : Word}

theorem Advance.accepted (h : Advance ns w w') (hn : Accepted w n) : Accepted w' n := by
  obtain ⟨p, hp, hmem⟩ := hn
  exact ⟨p, h.proofs p hp, hmem⟩

theorem Advance.vouched (h : Advance ns w w') (hn : Vouched w n) : Vouched w' n := by
  rcases hn with hn | hn
  · exact .inl (h.accepted hn)
  · exact .inr (h.received n hn)

theorem Ledger.vouched_used (h : Ledger w) (hn : Vouched w n) : w.state.usedNullifiers n = true := by
  rcases hn with hn | hn
  · exact h.named n hn
  · exact h.arrived n hn

/-- What is spent is entered once and for all. -/
theorem Advance.entry_same (h : Advance ns w w') (hn : w.state.usedNullifiers n = true) :
    w'.state.recursiveNullifiers n = w.state.recursiveNullifiers n := by
  rcases h.entries n with hsame | hnew
  · exact hsame
  · exact absurd (hnew.unused.symm.trans hn) Bool.false_ne_true

/-- **LEDGER RULE**: an advance keeps the ledger. -/
theorem Ledger.advance (hw : Ledger w) (h : Advance ns w w') : Ledger w' := by
  constructor
  case spent =>
    intro n hn
    rw [h.log] at hn
    rcases List.mem_append.mp hn with hold | hnew
    · exact h.keeps n (hw.spent n hold)
    · exact h.used n hnew
  case named =>
    intro n hn
    obtain ⟨p, hp, hmem⟩ := hn
    rcases h.named p hp with hold | hnew
    · exact h.keeps n (hw.named n ⟨p, hold, hmem⟩)
    · exact hnew n hmem
  case arrived =>
    intro n hn
    rcases h.arrived n hn with hold | hnew
    · exact h.keeps n (hw.arrived n hold)
    · exact hnew
  case fresh =>
    intro n hn
    have hunused : w.state.usedNullifiers n = false := by
      by_contra hused
      exact absurd (hn.symm.trans (h.keeps n (Bool.not_eq_false _ ▸ hused))) Bool.false_ne_true
    rcases h.entries n with hsame | hnew
    · rw [hsame]
      exact hw.fresh n hunused
    · exact absurd (hn.symm.trans hnew.used) Bool.false_ne_true
  case toSound =>
    constructor
    case total => rw [h.total, h.log, List.length_append, hw.total]
    case once =>
      rw [h.log]
      refine List.nodup_append.mpr ⟨hw.once, h.nodup, fun n hn k hk hnk => ?_⟩
      subst hnk
      exact absurd ((h.unused n hk).symm.trans (hw.spent n hn)) Bool.false_ne_true
    case composed =>
      intro n hn
      rcases h.composed n with hsame | hnew
      · rw [hsame] at hn
        exact h.accepted (hw.composed n hn)
      · exact hnew
    case recursive =>
      intro n hn
      rcases h.entries n with hsame | hnew
      · rw [hsame] at hn
        exact h.accepted (hw.recursive n hn)
      · exact hnew.accepted
    case parents =>
      intro n hn hparent
      rcases h.entries n with hsame | hnew
      · -- the parent was spent, so its own entry stays as it is
        rw [hsame] at hn hparent ⊢
        obtain ⟨hvouched, hdepth⟩ := hw.parents n hn hparent
        rw [h.entry_same (hw.vouched_used hvouched)]
        exact ⟨h.vouched hvouched, hdepth⟩
      · exact hnew.parent hparent

/-! ## What nothing is counted by -/

/-- Nothing of the ledger changes. -/
structure Calm (w w' : World) : Prop where
  log : counted w' = counted w
  total : w'.state.totalVerified = w.state.totalVerified
  used : w'.state.usedNullifiers = w.state.usedNullifiers
  composed : w'.state.composedCalls = w.state.composedCalls
  entries : w'.state.recursiveNullifiers = w.state.recursiveNullifiers
  proofs : w'.proofs = w.proofs
  received : w'.received = w.received
  gateway : w'.state.sp1Gateway = w.state.sp1Gateway

theorem Calm.trans {w'' : World} (h : Calm w w') (h' : Calm w' w'') : Calm w w'' where
  log := h'.log.trans h.log
  total := h'.total.trans h.total
  used := h'.used.trans h.used
  composed := h'.composed.trans h.composed
  entries := h'.entries.trans h.entries
  proofs := h'.proofs.trans h.proofs
  received := h'.received.trans h.received
  gateway := h'.gateway.trans h.gateway

theorem Ledger.same (hw : Ledger w) (hlog : counted w' = counted w)
    (htotal : w'.state.totalVerified = w.state.totalVerified) (hused : w'.state.usedNullifiers = w.state.usedNullifiers)
    (hcomposed : w'.state.composedCalls = w.state.composedCalls)
    (hentries : w'.state.recursiveNullifiers = w.state.recursiveNullifiers)
    (hproofs : w'.proofs = w.proofs) (hreceived : w'.received = w.received) : Ledger w' := by
  have hadvance : Advance [] w w' := by
    constructor
    case total => exact htotal
    case log => rw [hlog, List.append_nil]
    case nodup => exact List.nodup_nil
    case unused => exact fun n hn => absurd hn List.not_mem_nil
    case used => exact fun n hn => absurd hn List.not_mem_nil
    case keeps => exact fun n hn => by rw [hused]; exact hn
    case proofs => exact fun p hp => by rw [hproofs]; exact hp
    case named => exact fun p hp => .inl (hproofs ▸ hp)
    case received => exact fun n hn => by rw [hreceived]; exact hn
    case arrived => exact fun n hn => .inl (hreceived ▸ hn)
    case composed => exact fun n => .inl (by rw [hcomposed])
    case entries => exact fun n => .inl (by rw [hentries])
  exact hw.advance hadvance

theorem Ledger.calm (hw : Ledger w) (h : Calm w w') : Ledger w' :=
  hw.same h.log h.total h.used h.composed h.entries h.proofs h.received

theorem counted_emit (e : Event) (w : World) : counted (w.emit e) = counted w ++ (countedNullifier e).toList := by
  rw [counted, World.emit, List.filterMap_append]
  cases he : countedNullifier e with
  | none => rw [List.filterMap_cons_none he]; rfl
  | some n => rw [List.filterMap_cons_some he]; rfl

/-- An event that counts nothing. -/
theorem calm_emit {e : Event} (he : countedNullifier e = none) (w : World) : Calm w (w.emit e) where
  log := by rw [counted_emit, he, Option.toList_none, List.append_nil]
  total := rfl
  used := rfl
  composed := rfl
  entries := rfl
  proofs := rfl
  received := rfl
  gateway := rfl

/-- A write to storage the ledger is not in. -/
theorem calm_put (htotal : s.totalVerified = w.state.totalVerified)
    (hused : s.usedNullifiers = w.state.usedNullifiers) (hcomposed : s.composedCalls = w.state.composedCalls)
    (hentries : s.recursiveNullifiers = w.state.recursiveNullifiers) (hgateway : s.sp1Gateway = w.state.sp1Gateway) :
    Calm w (w.put s) where
  log := rfl
  total := htotal
  used := hused
  composed := hcomposed
  entries := hentries
  proofs := rfl
  received := rfl
  gateway := hgateway

variable {keccak256 : List UInt8 → Word} {m : Msg} {p : Peers}

theorem evaluateCircuitBreaker_calm (h : evaluateCircuitBreaker w = .ok w') : Calm w w' := by
  obtain ⟨failures, -, h⟩ := bind_iff.mp h
  obtain ⟨tripped, -, h⟩ := bind_iff.mp h
  have hcount : Calm w (w.put { w.state with failuresInWindow := failures }) := calm_put rfl rfl rfl rfl rfl
  split at h
  · rw [guarded_iff] at h
    cases h.2
    refine hcount.trans ?_
    have hpause : ∀ v : World, Calm v (v.put { v.state with paused := true }) := fun v => calm_put rfl rfl rfl rfl rfl
    exact (hpause _).trans (calm_emit rfl _)
  · cases h
    exact hcount

theorem failProof_calm {circuitId : Word} {reason : String} (h : failProof m circuitId reason w = .ok w') :
    Calm w w' := by
  obtain ⟨failed, -, h⟩ := bind_iff.mp h
  have hcount : Calm w (w.put { w.state with totalFailed := failed }) := calm_put rfl rfl rfl rfl rfl
  exact hcount.trans ((calm_emit rfl _).trans (evaluateCircuitBreaker_calm h))

theorem updateMetrics_calm (h : updateMetrics m w.state = .ok s) : Calm w (w.put s) := by
  obtain ⟨rolled, hrolled, h⟩ := bind_iff.mp h
  obtain ⟨verifications, -, h⟩ := bind_iff.mp h
  cases h
  obtain ⟨windowEnd, -, hrolled⟩ := bind_iff.mp hrolled
  split at hrolled
  · cases hrolled
    exact calm_put rfl rfl rfl rfl rfl
  · cases hrolled
    exact calm_put rfl rfl rfl rfl rfl

theorem checkStake_calm (h : checkStake p w.state = .ok s) : Calm w (w.put s) := by
  rw [checkStake] at h
  split at h
  · split at h
    · cases h
    · rw [guarded_iff] at h
      obtain ⟨checked, -, h⟩ := bind_iff.mp h.2
      cases h
      exact calm_put rfl rfl rfl rfl rfl
  · cases h
    exact calm_put rfl rfl rfl rfl rfl

/-! ## One proof -/

variable {circuitId programVKey nullifier : Word} {publicValues proofBytes : List UInt8} {reason : String}
  {record : World → Except Revert World} {b : Bool}

/-- The nullifier is spent, and the accepted proof noted. -/
def accept (proof : Proof) (nullifier : Word) (w : World) : World :=
  { w.put (spend nullifier w.state) with proofs := w.proofs ++ [proof] }

/-- **WHAT A PROOF DOES**: its nullifier is spent.  A rejected one changes nothing else of
    the ledger; what follows on an accepted one is up to its entry point. -/
theorem ask_ok (hgateway : w.state.sp1Gateway ≠ 0)
    (h : ask m p circuitId programVKey ns publicValues proofBytes nullifier reason record w = .ok (b, w')) :
    (b = false ∧ p.gateway programVKey publicValues proofBytes = .rejects ∧ Calm (w.put (spend nullifier w.state)) w')
    ∨ (b = true ∧ p.gateway programVKey publicValues proofBytes = .accepts
      ∧ ∃ w1, Calm (accept ⟨ns, programVKey, publicValues, proofBytes⟩ nullifier w) w1 ∧ record w1 = .ok w') := by
  obtain ⟨⟨isValid, asked⟩, hasked, h⟩ := bind_iff.mp h
  obtain ⟨s, hs, h⟩ := bind_iff.mp h
  have hput : Calm asked (asked.put s) := updateMetrics_calm hs
  have hset : (w.put (spend nullifier w.state)).state.sp1Gateway ≠ 0 := hgateway
  rw [verifyViaSP1, if_neg hset] at hasked
  cases hreply : p.gateway programVKey publicValues proofBytes with
  | accepts =>
    rw [hreply] at hasked
    cases hasked
    rw [if_pos rfl] at h
    obtain ⟨done, hrecord, h⟩ := bind_iff.mp h
    cases h
    exact .inr ⟨rfl, rfl, _, hput, hrecord⟩
  | rejects =>
    rw [hreply] at hasked
    cases hasked
    rw [if_neg Bool.false_ne_true] at h
    obtain ⟨done, hfail, h⟩ := bind_iff.mp h
    cases h
    exact .inl ⟨rfl, rfl, hput.trans (failProof_calm hfail)⟩
  | noCode =>
    rw [hreply] at hasked
    cases hasked

/-- A proof of a registered circuit with an unspent nullifier, past its guard. -/
theorem prove_ok {guard : State → Except Revert Unit} (hgateway : w.state.sp1Gateway ≠ 0)
    (h : prove m p circuitId ns publicValues proofBytes nullifier reason guard record w = .ok (b, w')) :
    w.state.usedNullifiers nullifier = false ∧ guard w.state = .ok ()
    ∧ ((b = false ∧ p.gateway (w.state.circuits circuitId) publicValues proofBytes = .rejects
        ∧ Calm (w.put (spend nullifier w.state)) w')
      ∨ (b = true ∧ p.gateway (w.state.circuits circuitId) publicValues proofBytes = .accepts
        ∧ ∃ w1, Calm (accept ⟨ns, w.state.circuits circuitId, publicValues, proofBytes⟩ nullifier w) w1
          ∧ record w1 = .ok w')) := by
  obtain ⟨-, -, h⟩ := bind_iff.mp h
  rw [guarded_iff, guarded_iff] at h
  obtain ⟨-, hunused, h⟩ := h
  obtain ⟨⟨⟩, hguard, h⟩ := bind_iff.mp h
  exact ⟨Bool.eq_false_iff.mpr hunused, hguard, ask_ok hgateway h⟩

theorem Ledger.spend (hw : Ledger w) (h : Calm (w.put (spend nullifier w.state)) w') : Ledger w' := by
  have hspend : Advance [] w (w.put (ZKVerifier.spend nullifier w.state)) := by
    constructor
    case total => rfl
    case log => exact (List.append_nil _).symm
    case nodup => exact List.nodup_nil
    case unused => exact fun n hn => absurd hn List.not_mem_nil
    case used => exact fun n hn => absurd hn List.not_mem_nil
    case keeps =>
      intro n hn
      show update w.state.usedNullifiers nullifier true n = true
      by_cases heq : n = nullifier
      · rw [heq, update_self]
      · rw [update_of_ne heq]
        exact hn
    case proofs => exact fun p hp => hp
    case named => exact fun p hp => .inl hp
    case received => exact fun n hn => hn
    case arrived => exact fun n hn => .inl hn
    case composed => exact fun n => .inl rfl
    case entries => exact fun n => .inl rfl
  exact (hw.advance hspend).calm h

/-- One accepted proof counts its nullifier, and may record it in either table. -/
structure Records (proof : Proof) (nullifier : Word) (w w' : World) : Prop where
  total : w'.state.totalVerified = w.state.totalVerified + 1
  log : counted w' = counted w ++ [nullifier]
  used : w'.state.usedNullifiers = update w.state.usedNullifiers nullifier true
  proofs : w'.proofs = w.proofs ++ [proof]
  names : proof.nullifiers = [nullifier]
  received : w'.received = w.received
  composed : ∀ n, n ≠ nullifier → w'.state.composedCalls n = w.state.composedCalls n
  others : ∀ n, n ≠ nullifier → w'.state.recursiveNullifiers n = w.state.recursiveNullifiers n
  entry : w'.state.recursiveNullifiers nullifier = w.state.recursiveNullifiers nullifier
    ∨ ((w'.state.recursiveNullifiers nullifier).parentNullifier ≠ 0 →
      Vouched w (w'.state.recursiveNullifiers nullifier).parentNullifier
      ∧ (w.state.recursiveNullifiers (w'.state.recursiveNullifiers nullifier).parentNullifier).depth
        < (w'.state.recursiveNullifiers nullifier).depth)

theorem Ledger.records {proof : Proof} (hw : Ledger w) (hunused : w.state.usedNullifiers nullifier = false)
    (h : Records proof nullifier w w') : Ledger w' := by
  have hused : w'.state.usedNullifiers nullifier = true := by
    rw [h.used, update_self]
  have haccepted : Accepted w' nullifier := by
    refine ⟨proof, ?_, ?_⟩
    · rw [h.proofs]
      exact List.mem_concat_self
    · rw [h.names]
      exact List.mem_singleton_self _
  have hproofs : ∀ q ∈ w.proofs, q ∈ w'.proofs := by
    intro q hq
    rw [h.proofs]
    exact List.mem_append_left _ hq
  have hadvance : Advance [nullifier] w w' := by
    constructor
    case total => exact h.total
    case log => exact h.log
    case nodup => exact List.pairwise_singleton _ _
    case unused => exact fun n hn => List.mem_singleton.mp hn ▸ hunused
    case used => exact fun n hn => List.mem_singleton.mp hn ▸ hused
    case keeps =>
      intro n hn
      rw [h.used]
      by_cases heq : n = nullifier
      · rw [heq, update_self]
      · rw [update_of_ne heq]
        exact hn
    case proofs => exact hproofs
    case named =>
      intro q hq
      rw [h.proofs] at hq
      rcases List.mem_append.mp hq with hold | hnew
      · exact .inl hold
      · refine .inr fun n hn => ?_
        rw [List.mem_singleton.mp hnew, h.names] at hn
        rw [List.mem_singleton.mp hn]
        exact hused
    case received => exact fun n hn => by rw [h.received]; exact hn
    case arrived => exact fun n hn => .inl (h.received ▸ hn)
    case composed =>
      intro n
      by_cases heq : n = nullifier
      · rw [heq]
        exact .inr haccepted
      · exact .inl (h.composed n heq)
    case entries =>
      intro n
      by_cases heq : n = nullifier
      · subst heq
        rcases h.entry with hsame | hparent
        · exact .inl hsame
        · refine .inr ⟨hunused, hused, haccepted, fun hne => ?_⟩
          obtain ⟨hvouched, hdepth⟩ := hparent hne
          -- the parent is spent, so it is not the new entry
          have hother : (w'.state.recursiveNullifiers n).parentNullifier ≠ n := by
            intro hself
            rw [hself] at hvouched
            exact absurd (hunused.symm.trans (hw.vouched_used hvouched)) Bool.false_ne_true
          rw [h.others _ hother]
          refine ⟨?_, hdepth⟩
          rcases hvouched with ⟨q, hq, hmem⟩ | hreceived
          · exact .inl ⟨q, hproofs q hq, hmem⟩
          · exact .inr (h.received ▸ hreceived)
      · exact .inl (h.others n heq)
  exact hw.advance hadvance

theorem countVerified_ok (h : countVerified w = .ok w') :
    w' = w.put { w.state with totalVerified := w.state.totalVerified + 1 } := by
  obtain ⟨verified, hverified, h⟩ := bind_iff.mp h
  obtain ⟨-, rfl⟩ := addU_ok_iff.mp hverified
  exact (Except.ok.inj h).symm

section Records

variable {proof : Proof} {w1 : World}

/-- After one more is counted, the two tables and the event are left. -/
theorem records_of (hnames : proof.nullifiers = [nullifier]) (h1 : Calm (accept proof nullifier w) w1) (e : Event)
    (he : countedNullifier e = some nullifier) (s : State) (htotal : s.totalVerified = w1.state.totalVerified + 1)
    (hused : s.usedNullifiers = w1.state.usedNullifiers)
    (hcomposed : ∀ n, n ≠ nullifier → s.composedCalls n = w1.state.composedCalls n)
    (hothers : ∀ n, n ≠ nullifier → s.recursiveNullifiers n = w1.state.recursiveNullifiers n)
    (hentry : s.recursiveNullifiers nullifier = w1.state.recursiveNullifiers nullifier
      ∨ ((s.recursiveNullifiers nullifier).parentNullifier ≠ 0 →
        Vouched w (s.recursiveNullifiers nullifier).parentNullifier
        ∧ (w.state.recursiveNullifiers (s.recursiveNullifiers nullifier).parentNullifier).depth
          < (s.recursiveNullifiers nullifier).depth)) :
    Records proof nullifier w ((w1.put s).emit e) where
  total := htotal.trans (congrArg (· + 1) h1.total)
  log := by
    rw [counted_emit, he]
    exact congrArg (· ++ [nullifier]) h1.log
  used := hused.trans h1.used
  proofs := h1.proofs
  names := hnames
  received := h1.received
  composed := fun n hn => (hcomposed n hn).trans (congrFun h1.composed n)
  others := fun n hn => (hothers n hn).trans (congrFun h1.entries n)
  entry := hentry.imp_left fun hsame => hsame.trans (congrFun h1.entries nullifier)

theorem recordProof_ok (hnames : proof.nullifiers = [nullifier]) (h1 : Calm (accept proof nullifier w) w1)
    (h : recordProof keccak256 m circuitId publicValues nullifier w1 = .ok w') : Records proof nullifier w w' := by
  obtain ⟨done, hdone, h⟩ := bind_iff.mp h
  obtain rfl := countVerified_ok hdone
  cases h
  exact records_of hnames h1 _ rfl _ rfl rfl (fun _ _ => rfl) (fun _ _ => rfl) (.inl rfl)

theorem recordCall_ok {stateRoot : Word} {sourceBlock : Nat} {targetContract : Address}
    (hnames : proof.nullifiers = [nullifier]) (h1 : Calm (accept proof nullifier w) w1)
    (h : recordCall keccak256 m circuitId stateRoot sourceBlock targetContract publicValues nullifier w1 = .ok w') :
    Records proof nullifier w w' := by
  obtain ⟨done, hdone, h⟩ := bind_iff.mp h
  obtain rfl := countVerified_ok hdone
  obtain ⟨calls, -, h⟩ := bind_iff.mp h
  cases h
  exact records_of hnames h1 _ rfl _ rfl rfl (fun n hn => update_of_ne hn ..) (fun _ _ => rfl) (.inl rfl)

theorem recordRecursive_ok {parentNullifier : Word} {depth : Nat} (hnames : proof.nullifiers = [nullifier])
    (hparent : parentNullifier ≠ 0 →
      Vouched w parentNullifier ∧ (w.state.recursiveNullifiers parentNullifier).depth < depth)
    (h1 : Calm (accept proof nullifier w) w1)
    (h : recordRecursive keccak256 m parentNullifier publicValues nullifier depth w1 = .ok w') :
    Records proof nullifier w w' := by
  obtain ⟨done, hdone, h⟩ := bind_iff.mp h
  obtain rfl := countVerified_ok hdone
  obtain ⟨recursive, -, h⟩ := bind_iff.mp h
  cases h
  refine records_of hnames h1 _ rfl _ rfl rfl (fun _ _ => rfl) (fun n hn => update_of_ne hn ..) (.inr ?_)
  show (update w1.state.recursiveNullifiers nullifier _ nullifier).parentNullifier ≠ 0 →
    Vouched w (update w1.state.recursiveNullifiers nullifier _ nullifier).parentNullifier
    ∧ (w.state.recursiveNullifiers (update w1.state.recursiveNullifiers nullifier _ nullifier).parentNullifier).depth
      < (update w1.state.recursiveNullifiers nullifier _ nullifier).depth
  rw [update_self]
  exact hparent

end Records

/-! ## The entry points -/

theorem verifyProofInternal_ledger (hgateway : w.state.sp1Gateway ≠ 0) (hw : Ledger w)
    (h : verifyProofInternal keccak256 m p circuitId publicValues proofBytes nullifier w = .ok (b, w')) :
      Ledger w' := by
  obtain ⟨hunused, -, hproof⟩ := prove_ok hgateway h
  rcases hproof with ⟨-, -, hcalm⟩ | ⟨-, -, w1, h1, hrecord⟩
  · exact hw.spend hcalm
  · exact hw.records hunused (recordProof_ok rfl h1 hrecord)

theorem verifyItem_ledger {item : BatchItem} (hgateway : w.state.sp1Gateway ≠ 0) (hw : Ledger w)
    (h : verifyItem keccak256 m p w item = .ok w') : Ledger w' ∧ w'.state.sp1Gateway = w.state.sp1Gateway := by
  rw [verifyItem] at h
  split at h
  · cases h
    exact ⟨hw, rfl⟩
  · rename_i hskip
    obtain ⟨⟨b, asked⟩, hasked, h⟩ := bind_iff.mp h
    cases h
    have hunused : w.state.usedNullifiers item.nullifier = false :=
      Bool.eq_false_iff.mpr fun hused => hskip (.inr hused)
    rcases ask_ok hgateway hasked with ⟨-, -, hcalm⟩ | ⟨-, -, w1, h1, hrecord⟩
    · exact ⟨hw.spend hcalm, hcalm.gateway⟩
    · refine ⟨hw.records hunused (recordProof_ok rfl h1 hrecord), ?_⟩
      obtain ⟨done, hdone, hrecord⟩ := bind_iff.mp hrecord
      obtain rfl := countVerified_ok hdone
      cases hrecord
      exact h1.gateway

/-- Item by item: each finds what the ones before it spent. -/
theorem verifyItems_ledger (items : List BatchItem) (hgateway : w.state.sp1Gateway ≠ 0) (hw : Ledger w)
    (h : items.foldlM (verifyItem keccak256 m p) w = .ok w') : Ledger w' := by
  induction items generalizing w with
  | nil =>
    cases h
    exact hw
  | cons item items ih =>
    obtain ⟨next, hnext, h⟩ := bind_iff.mp h
    obtain ⟨hledger, hsame⟩ := verifyItem_ledger hgateway hw hnext
    exact ih (hsame ▸ hgateway) hledger h

theorem receiveProof_ledger {origin : Nat} {msg : ProofMessage} (hw : Ledger w)
    (h : receiveProof m origin msg w = .ok w') : Ledger w' := by
  rw [receiveProof] at h
  split at h
  · cases h
    exact hw
  · rename_i hnot
    have hunused : w.state.usedNullifiers msg.nullifier = false := Bool.eq_false_iff.mpr hnot
    obtain ⟨verified, hverified, h⟩ := bind_iff.mp h
    obtain ⟨-, rfl⟩ := addU_ok_iff.mp hverified
    cases h
    have hspent : update w.state.usedNullifiers msg.nullifier true msg.nullifier = true := update_self ..
    refine hw.advance (show Advance [msg.nullifier] w _ from ?_)
    constructor
    case total => rfl
    case log =>
      show counted (World.emit _ (World.emit _ _)) = _
      rw [counted_emit, counted_emit]
      exact congrArg (· ++ [msg.nullifier]) (List.append_nil _)
    case nodup => exact List.pairwise_singleton _ _
    case unused => exact fun n hn => List.mem_singleton.mp hn ▸ hunused
    case used => exact fun n hn => List.mem_singleton.mp hn ▸ hspent
    case keeps =>
      intro n hn
      show update w.state.usedNullifiers msg.nullifier true n = true
      by_cases heq : n = msg.nullifier
      · rw [heq, update_self]
      · rw [update_of_ne heq]
        exact hn
    case proofs => exact fun q hq => hq
    case named => exact fun q hq => .inl hq
    case received => exact fun n hn => List.mem_append_left _ hn
    case arrived =>
      intro n hn
      rcases List.mem_append.mp hn with hold | hnew
      · exact .inl hold
      · exact .inr (List.mem_singleton.mp hnew ▸ hspent)
    case composed => exact fun n => .inl rfl
    case entries => exact fun n => .inl rfl

theorem execConfig_same (call : OpenCall) (s : State) : Ensures (fun s' => s'.totalVerified = s.totalVerified
    ∧ s'.usedNullifiers = s.usedNullifiers ∧ s'.composedCalls = s.composedCalls
    ∧ s'.recursiveNullifiers = s.recursiveNullifiers) (execConfig m call s) := by
  cases call with
  | registerCircuit | removeCircuit =>
    exact ensures_skip fun _ => ensures_skip fun _ => ensures_skip fun _ => ensures_ok ⟨rfl, rfl, rfl, rfl⟩
  | setGateway | setMailbox | configureDomain | setStakeCheck =>
    exact ensures_skip fun _ => ensures_ok ⟨rfl, rfl, rfl, rfl⟩
  | pause | unpause => exact ensures_skip fun _ => ensures_skip fun _ => ensures_ok ⟨rfl, rfl, rfl, rfl⟩
  | handle origin sender body => exact ensures_ok ⟨rfl, rfl, rfl, rfl⟩

theorem config_ledger (hw : Ledger w) (h : (execConfig m call w.state >>= fun s => .ok (w.put s)) = .ok w') :
    Ledger w' := by
  obtain ⟨s, hs, h⟩ := bind_iff.mp h
  cases h
  obtain ⟨htotal, hused, hcomposed, hentries⟩ := execConfig_same call w.state s hs
  exact hw.same rfl htotal hused hcomposed hentries rfl rfl

theorem execOpen_ledger (hw : Ledger w) (h : execOpen m call w = .ok w') : Ledger w' := by
  cases call with
  | handle origin sender body =>
    rw [execOpen, handle, guarded_iff, guarded_iff] at h
    obtain ⟨-, -, h⟩ := h
    split at h
    · cases h
    · exact receiveProof_ledger hw h
  | registerCircuit | removeCircuit | setGateway | setMailbox | configureDomain | setStakeCheck | pause | unpause =>
    exact config_ledger hw h

theorem play_ledger (n : Msg × OpenCall) (hw : Ledger w) : Ledger (play w n) := by
  rw [play]
  split
  · rename_i w' h
    exact execOpen_ledger hw h
  · exact hw

theorem contact_ledger {e : Revert} {r : Reply} (hw : Ledger w) (h : contact e r w = .ok w') : Ledger w' := by
  rw [contact] at h
  split at h
  · cases h
    exact Trace.run_invariant Ledger r.calls hw fun _ n hw => play_ledger n hw
  · cases h

theorem dispatchProof_ledger {destDomain value : Nat} (hw : Ledger w)
    (h : dispatchProof m p circuitId nullifier destDomain value w = .ok w') : Ledger w' := by
  rw [dispatchProof, guarded_iff] at h
  obtain ⟨relayed, -, h⟩ := bind_iff.mp h.2
  obtain ⟨sent, hsent, h⟩ := bind_iff.mp h
  have hcount : Ledger (w.put { w.state with totalRelayed := relayed }) := hw.calm (calm_put rfl rfl rfl rfl rfl)
  have hnoted := (contact_ledger hcount hsent).calm (calm_emit (e := .proofRelayed circuitId nullifier destDomain
    p.messageId m.timestamp) rfl sent)
  split at h
  · exact contact_ledger hnoted h
  · cases h
    exact hnoted

/-! ## A rollup -/

variable {batchRoot rollupNullifier : Word} {inner innerCircuitIds : List Word}

def innerEntry (batchRoot rollupNullifier : Word) : RecursiveNullifier where
  parentNullifier := rollupNullifier
  batchRoot := batchRoot
  depth := 1
  verified := true

structure InnerEntered (batchRoot rollupNullifier : Word) (ns : List Word) (w w' : World) : Prop where
  log : counted w' = counted w ++ ns
  total : w'.state.totalVerified = w.state.totalVerified
  used : ∀ n, w'.state.usedNullifiers n = true ↔ w.state.usedNullifiers n = true ∨ n ∈ ns
  composed : w'.state.composedCalls = w.state.composedCalls
  proofs : w'.proofs = w.proofs
  received : w'.received = w.received
  entered : ∀ n ∈ ns, w'.state.recursiveNullifiers n = innerEntry batchRoot rollupNullifier
  others : ∀ n, n ∉ ns → w'.state.recursiveNullifiers n = w.state.recursiveNullifiers n

theorem enterInner_fold (ns : List Word) (w : World) :
    InnerEntered batchRoot rollupNullifier ns w (ns.foldl (enterInner m batchRoot rollupNullifier) w) := by
  induction ns generalizing w with
  | nil =>
    constructor
    case log => exact (List.append_nil _).symm
    case total => rfl
    case used => exact fun n => ⟨.inl, fun h => h.resolve_right List.not_mem_nil⟩
    case composed => rfl
    case proofs => rfl
    case received => rfl
    case entered => exact fun n hn => absurd hn List.not_mem_nil
    case others => exact fun n _ => rfl
  | cons k ns ih =>
    have h := ih (enterInner m batchRoot rollupNullifier w k)
    have hlog : counted (enterInner m batchRoot rollupNullifier w k) = counted w ++ [k] := counted_emit _ _
    have hused : (enterInner m batchRoot rollupNullifier w k).state.usedNullifiers
        = update w.state.usedNullifiers k true := rfl
    have hentries : (enterInner m batchRoot rollupNullifier w k).state.recursiveNullifiers
        = update w.state.recursiveNullifiers k (innerEntry batchRoot rollupNullifier) := rfl
    rw [List.foldl_cons]
    constructor
    case log => rw [h.log, hlog, List.append_assoc, List.singleton_append]
    case total => exact h.total
    case used =>
      intro n
      rw [h.used, hused, List.mem_cons]
      by_cases heq : n = k
      · rw [heq, update_self]
        exact ⟨fun _ => .inr (.inl rfl), fun _ => .inl rfl⟩
      · rw [update_of_ne heq, or_iff_right heq]
    case composed => exact h.composed
    case proofs => exact h.proofs
    case received => exact h.received
    case entered =>
      intro n hn
      by_cases hmem : n ∈ ns
      · exact h.entered n hmem
      · rw [h.others n hmem, hentries, (List.mem_cons.mp hn).resolve_right hmem, update_self]
    case others =>
      intro n hn
      rw [List.mem_cons, not_or] at hn
      rw [h.others n hn.2, hentries, update_of_ne hn.1]

theorem checkBatch_unused (h : checkBatch keccak256 batchRoot inner innerCircuitIds s = .ok ()) :
    ∀ n ∈ inner, s.usedNullifiers n = false := by
  rw [checkBatch, guarded_iff, guarded_iff, guarded_iff] at h
  obtain ⟨-, -, -, h⟩ := h
  intro n hn
  exact Bool.eq_false_iff.mpr (revertIf_ok_iff.mp (forM_ok_iff.mp h n hn))

/-- **A ROLLUP** of distinct inner nullifiers, none its own, counts each of them. -/
theorem recordRollup_ledger {proof : Proof} {w1 : World} (hw : Ledger w)
    (hunused : w.state.usedNullifiers rollupNullifier = false)
    (hinner : ∀ n ∈ inner, w.state.usedNullifiers n = false) (hnodup : inner.Nodup)
    (hown : rollupNullifier ∈ inner → rollupNullifier = 0) (hnames : proof.nullifiers = rollupNullifier :: inner)
    (h1 : Calm (accept proof rollupNullifier w) w1)
    (h : recordRollup m p batchRoot inner innerCircuitIds rollupNullifier w1 = .ok w') : Ledger w' := by
  obtain ⟨batchId, -, h⟩ := bind_iff.mp h
  obtain ⟨verified, hverified, h⟩ := bind_iff.mp h
  obtain ⟨-, rfl⟩ := addU_ok_iff.mp hverified
  obtain ⟨recursive, -, h⟩ := bind_iff.mp h
  cases h
  have hfold : InnerEntered batchRoot rollupNullifier inner w1
      (inner.foldl (enterInner m batchRoot rollupNullifier) w1) := enterInner_fold inner w1
  generalize inner.foldl (enterInner m batchRoot rollupNullifier) w1 = w2 at hfold ⊢
  -- spent after the rollup: what was, the rollup and its inner nullifiers
  have hused : ∀ n, w2.state.usedNullifiers n = true ↔
      (w.state.usedNullifiers n = true ∨ n = rollupNullifier) ∨ n ∈ inner := by
    intro n
    rw [hfold.used, h1.used]
    refine or_congr_left ?_
    show update w.state.usedNullifiers rollupNullifier true n = true ↔ _
    by_cases heq : n = rollupNullifier
    · rw [heq, update_self]
      exact ⟨fun _ => .inr rfl, fun _ => rfl⟩
    · rw [update_of_ne heq, or_iff_left heq]
  have hproofs : w2.proofs = w.proofs ++ [proof] := hfold.proofs.trans h1.proofs
  have haccepted : ∀ n ∈ rollupNullifier :: inner, Accepted w2 n := by
    intro n hn
    refine ⟨proof, ?_, ?_⟩
    · rw [hproofs]
      exact List.mem_concat_self
    · rw [hnames]
      exact hn
  refine hw.advance (show Advance inner w _ from ?_)
  constructor
  case total =>
    show w2.state.totalVerified + inner.length = _
    rw [hfold.total, h1.total]
    rfl
  case log =>
    rw [counted_emit]
    show counted w2 ++ [] = _
    rw [List.append_nil, hfold.log, h1.log]
    rfl
  case nodup => exact hnodup
  case unused => exact hinner
  case used => exact fun n hn => (hused n).mpr (.inr hn)
  case keeps => exact fun n hn => (hused n).mpr (.inl (.inl hn))
  case proofs =>
    intro q hq
    show q ∈ w2.proofs
    rw [hproofs]
    exact List.mem_append_left _ hq
  case named =>
    intro q hq
    rcases List.mem_append.mp (hproofs ▸ hq) with hold | hnew
    · exact .inl hold
    · refine .inr fun n hn => (hused n).mpr ?_
      rw [List.mem_singleton.mp hnew, hnames] at hn
      rcases List.mem_cons.mp hn with heq | hmem
      · exact .inl (.inr heq)
      · exact .inr hmem
  case received =>
    intro n hn
    show n ∈ w2.received
    rw [hfold.received, h1.received]
    exact hn
  case arrived =>
    intro n hn
    have hsame : w2.received = w.received := hfold.received.trans h1.received
    exact .inl (hsame ▸ hn)
  case composed =>
    intro n
    exact .inl (congrFun (hfold.composed.trans h1.composed) n)
  case entries =>
    intro n
    by_cases hmem : n ∈ inner
    · refine .inr ⟨hinner n hmem, (hused n).mpr (.inr hmem), haccepted n (List.mem_cons_of_mem _ hmem), ?_⟩
      show (w2.state.recursiveNullifiers n).parentNullifier ≠ 0 →
        Vouched w2 (w2.state.recursiveNullifiers n).parentNullifier
        ∧ (w2.state.recursiveNullifiers (w2.state.recursiveNullifiers n).parentNullifier).depth
          < (w2.state.recursiveNullifiers n).depth
      rw [hfold.entered n hmem]
      intro hne
      refine ⟨.inl (haccepted rollupNullifier (List.mem_cons_self ..)), ?_⟩
      -- the rollup itself has no entry
      show (w2.state.recursiveNullifiers rollupNullifier).depth < 1
      rw [hfold.others _ fun hself => hne (hown hself), h1.entries]
      show (w.state.recursiveNullifiers rollupNullifier).depth < 1
      rw [hw.fresh _ hunused]
      exact Nat.one_pos
    · exact .inl ((hfold.others n hmem).trans (congrFun h1.entries n))

/-! ## Runs -/

/-- What the two entry points leave to the caller, where the gateway accepts: inner
    nullifiers that are distinct and none the rollup's own, and a parent that was verified,
    at a smaller depth. -/
def Sensible (w : World) (tx : Tx) : Prop :=
  match tx.call with
  | .settleRollupBatch circuitId _ innerNullifiers _ publicValues proofBytes rollupNullifier =>
    tx.peers.gateway (w.state.circuits circuitId) publicValues proofBytes = .accepts →
      innerNullifiers.Nodup ∧ (rollupNullifier ∈ innerNullifiers → rollupNullifier = 0)
  | .verifyRecursiveProof circuitId parentNullifier publicValues proofBytes _ depth =>
    tx.peers.gateway (w.state.circuits circuitId) publicValues proofBytes = .accepts → parentNullifier ≠ 0 →
      Vouched w parentNullifier ∧ (w.state.recursiveNullifiers parentNullifier).depth < depth
  | _ => True

/-- The gateway is set. -/
def Live (w : World) (_ : Tx) : Prop := w.state.sp1Gateway ≠ 0

theorem leave_ok {x : Except Revert (Bool × World)} (h : leave x = .ok w') : ∃ b, x = .ok (b, w') := by
  cases x with
  | error e => cases h
  | ok r => exact ⟨r.1, congrArg Except.ok (Prod.ext rfl (Except.ok.inj h))⟩

theorem exec_ledger (hlive : Live w tx) (hsensible : Sensible w tx) (hw : Ledger w) (h : exec keccak256 tx w = .ok w') :
    Ledger w' := by
  obtain ⟨m, call, p⟩ := tx
  cases call with
  | verifyProof circuitId publicValues proofBytes nullifier =>
    obtain ⟨b, h⟩ := leave_ok h
    rw [verifyProof, guarded_iff] at h
    exact verifyProofInternal_ledger hlive hw h.2
  | verifyProofBatch circuitIds publicValuesArr proofBytesArr nullifiers =>
    have hbatch : verifyProofBatch keccak256 m p circuitIds publicValuesArr proofBytesArr nullifiers w = .ok w' := h
    rw [verifyProofBatch, guarded_iff, guarded_iff] at hbatch
    exact verifyItems_ledger _ hlive hw hbatch.2.2
  | verifyComposedCall circuitId stateRoot sourceBlock targetContract publicValues proofBytes nullifier =>
    obtain ⟨b, h⟩ := leave_ok h
    rw [verifyComposedCall, guarded_iff] at h
    obtain ⟨hunused, -, hproof⟩ := prove_ok hlive h.2
    rcases hproof with ⟨-, -, hcalm⟩ | ⟨-, -, w1, h1, hrecord⟩
    · exact hw.spend hcalm
    · exact hw.records hunused (recordCall_ok rfl h1 hrecord)
  | relayProofCrossChain value circuitId publicValues proofBytes nullifier destDomain =>
    have hrelay : relayProofCrossChain keccak256 m p value circuitId publicValues proofBytes nullifier destDomain w
        = .ok w' := h
    rw [relayProofCrossChain, guarded_iff, guarded_iff, guarded_iff, guarded_iff] at hrelay
    obtain ⟨-, -, -, -, h⟩ := hrelay
    obtain ⟨⟨ok, verified⟩, hverified, h⟩ := bind_iff.mp h
    rw [guarded_iff] at h
    exact dispatchProof_ledger (verifyProofInternal_ledger hlive hw hverified) h.2
  | verifyWithStakeCheck circuitId publicValues proofBytes nullifier =>
    obtain ⟨b, h⟩ := leave_ok h
    rw [verifyWithStakeCheck, guarded_iff] at h
    obtain ⟨s, hs, h⟩ := bind_iff.mp h.2
    have hstake : Calm w (w.put s) := checkStake_calm hs
    have hset : (w.put s).state.sp1Gateway ≠ 0 := by
      rw [hstake.gateway]
      exact hlive
    exact verifyProofInternal_ledger hset (hw.calm hstake) h
  | settleRollupBatch circuitId batchRoot inner innerCircuitIds publicValues proofBytes rollupNullifier =>
    obtain ⟨b, h⟩ := leave_ok h
    rw [settleRollupBatch, guarded_iff] at h
    obtain ⟨hunused, hguard, hproof⟩ := prove_ok hlive h.2
    rcases hproof with ⟨-, -, hcalm⟩ | ⟨-, haccepts, w1, h1, hrecord⟩
    · exact hw.spend hcalm
    · obtain ⟨hnodup, hown⟩ := hsensible haccepts
      exact recordRollup_ledger hw hunused (checkBatch_unused hguard) hnodup hown rfl h1 hrecord
  | verifyRecursiveProof circuitId parentNullifier publicValues proofBytes nullifier depth =>
    obtain ⟨b, h⟩ := leave_ok h
    rw [verifyRecursiveProof, guarded_iff] at h
    obtain ⟨hunused, -, hproof⟩ := prove_ok hlive h.2
    rcases hproof with ⟨-, -, hcalm⟩ | ⟨-, haccepts, w1, h1, hrecord⟩
    · exact hw.spend hcalm
    · exact hw.records hunused (recordRecursive_ok rfl (hsensible haccepts) h1 hrecord)
  | openCall call => exact execOpen_ledger hw h

theorem step_ledger (htx : Live w tx ∧ Sensible w tx) (hw : Ledger w) : Ledger (step keccak256 w tx) := by
  rw [step]
  split
  · rename_i w' h
    exact exec_ledger htx.1 htx.2 hw h
  · exact hw

theorem start_ledger (sp1Gateway : Address) (now : Nat) : Ledger (start sp1Gateway now) := by
  constructor
  case spent => exact fun n hn => absurd hn List.not_mem_nil
  case named => exact fun n ⟨p, hp, _⟩ => absurd hp List.not_mem_nil
  case arrived => exact fun n hn => absurd hn List.not_mem_nil
  case fresh => exact fun n _ => rfl
  case toSound =>
    constructor
    case total => rfl
    case once => exact List.nodup_nil
    case composed => exact fun n hn => absurd rfl hn
    case recursive => exact fun n hn => absurd hn Bool.false_ne_true
    case parents => exact fun n hn => absurd hn Bool.false_ne_true

/-- **NO NULLIFIER COUNTS TWICE**: in every run with a gateway whose rollups and recursive
    proofs are sensible, the ledger is sound. -/
theorem nullifiers_count_once (sp1Gateway : Address) (now : Nat) (txs : List Tx)
    (hlive : Trace.Along (step keccak256) Live (start sp1Gateway now) txs)
    (hsensible : Trace.Along (step keccak256) Sensible (start sp1Gateway now) txs) :
    Sound (run keccak256 (start sp1Gateway now) txs) := by
  have hledger : Ledger (run keccak256 (start sp1Gateway now) txs) :=
    (hlive.and hsensible).keeps Ledger (start_ledger sp1Gateway now) fun w tx htx hw => step_ledger htx hw
  exact hledger.toSound

/-! ## A rollup that names a nullifier twice -/

/-- Keccak-256 on the strings the runs hash: the roots over 7, 8 and over 7, 7, both of
    circuit 1, and the empty public values. -/
def sampleKeccak (message : List UInt8) : Word :=
  (([(wordBytes 7 ++ wordBytes 1, 0xdc686ec4a0ff239c70e7c7c36e8f853eced3bc8618f48d2b816da2a74311237e),
    (wordBytes 0xdc686ec4a0ff239c70e7c7c36e8f853eced3bc8618f48d2b816da2a74311237e ++ wordBytes 8 ++ wordBytes 1,
      0xe390756a42b51e31f61934980478ca3b2a1d86f082004fa24b2a583bb51e737d),
    (wordBytes 0xdc686ec4a0ff239c70e7c7c36e8f853eced3bc8618f48d2b816da2a74311237e ++ wordBytes 7 ++ wordBytes 1,
      0x560821404bf1af85670956450c6b703aa7092cde2cfebd35fde5f91ef6645183),
    ([], 0xc5d2460186f7233c927e7db2dcc703c0e500b653ca82273b7bfad8045d85a470)] : List (List UInt8 × Word)).lookup
      message).getD 0

/-- The gateway accepts every proof but the empty one. -/
def samplePeers : Peers where
  gateway := fun _ _ proofBytes => if proofBytes = [] then .rejects else .accepts
  getStake := none
  quoteDispatch := 0
  dispatch := ⟨true, []⟩
  messageId := 0
  refund := ⟨true, []⟩
  gas := 0

/-- The admin holds every role, the others none. -/
def sampleTx (sender : Address) (call : Call) : Tx where
  msg := {
    sender := sender
    timestamp := 1700000000
    holds := fun _ => sender == 0xAD }
  call := call
  peers := samplePeers

/-- The circuit, and a rollup of the inner nullifiers with the root given. -/
def rollupTxs (batchRoot : Word) (inner : List Word) : List Tx := [
  sampleTx 0xAD (.openCall (.registerCircuit 1 0xABC)),
  sampleTx 0xB0B (.settleRollupBatch 1 batchRoot inner (inner.map fun _ => 1) [] [1] 100)]

/-- A rollup of two nullifiers, and a recursive proof below it. -/
def soundTxs : List Tx :=
  rollupTxs 0xe390756a42b51e31f61934980478ca3b2a1d86f082004fa24b2a583bb51e737d [7, 8]
    ++ [sampleTx 0xB0B (.verifyRecursiveProof 1 8 [] [1] 9 2)]

def sampleRun (txs : List Tx) : World := run sampleKeccak (start 0x6A7E 1700000000) txs

instance (w : World) (n : Word) : Decidable (Vouched w n) := by
  unfold Vouched Accepted
  infer_instance

instance (w : World) (tx : Tx) : Decidable (Sensible w tx) := by
  unfold Sensible
  split <;> infer_instance

instance (w : World) (tx : Tx) : Decidable (Live w tx) := instDecidableNot

theorem nullifiers_count_once_sample : Sound (sampleRun soundTxs) := by
  have hlive : Trace.Along (step sampleKeccak) Live (start 0x6A7E 1700000000) soundTxs := by decide +kernel
  have hsensible : Trace.Along (step sampleKeccak) Sensible (start 0x6A7E 1700000000) soundTxs := by decide +kernel
  exact nullifiers_count_once 0x6A7E 1700000000 soundTxs hlive hsensible

/-- A rollup of 7 and 7 counts it twice; and a recursive proof is entered below a parent
    that only a failed proof spent. -/
theorem nullifier_counted_twice :
    ¬ Sound (sampleRun (rollupTxs 0x560821404bf1af85670956450c6b703aa7092cde2cfebd35fde5f91ef6645183 [7, 7]))
    ∧ ¬ Sound (sampleRun [sampleTx 0xAD (.openCall (.registerCircuit 1 0xABC)), sampleTx 0xB0B (.verifyProof 1 [] [] 7),
      sampleTx 0xB0B (.verifyRecursiveProof 1 7 [] [1] 9 1)]) := by
  constructor
  · intro h
    have honce := h.once
    revert honce
    decide +kernel
  · intro h
    have hparent := (h.parents 9 (by decide +kernel) (by decide +kernel)).1
    revert hparent
    decide +kernel

end NullifierLedger
