import Chit402.NullifierLedgerProofs

/-! # The circuit breaker of the proof verifier

    Every proof the verifier looks at is counted in a window of an hour,
    and a rejected one may trip the breaker: the contract pauses.  The
    window is modelled by itself first, then every transaction is shown to
    move it, and what a batch returns is stated beside what it leaves. -/

namespace CircuitBreaker

open ExceptFlow Solidity ZKVerifier

/-! ## The window -/

/-- What the breaker reads and writes. -/
structure Window where
  start : ℕ
  failures : ℕ
  checks : ℕ
  paused : Bool

def window (s : State) : Window := ⟨s.failureWindowStart, s.failuresInWindow, s.verificationsInWindow, s.paused⟩

/-- More than 100 checks, over 5 percent of them failed. -/
def Window.Exceeded (w : Window) : Prop := 100 < w.checks ∧ maxFailureRateBps < w.failures * 10000 / w.checks

instance (w : Window) : Decidable w.Exceeded := inferInstanceAs (Decidable (_ ∧ _))

/-- The window at `now`, begun anew when it is over. -/
def Window.roll (now : ℕ) (w : Window) : Window :=
  if w.start + failureWindow < now then ⟨now, 0, 0, w.paused⟩ else w

/-- An accepted proof. -/
def Window.pass (now : ℕ) (w : Window) : Window :=
  ⟨(w.roll now).start, (w.roll now).failures, (w.roll now).checks + 1, w.paused⟩

def Window.miss (w : Window) : Window := ⟨w.start, w.failures + 1, w.checks, w.paused⟩

/-- The rate is looked at. -/
def Window.trip (w : Window) : Window := ⟨w.start, w.failures, w.checks, w.paused || decide w.Exceeded⟩

/-- A rejected proof. -/
def Window.fail (now : ℕ) (w : Window) : Window := (w.pass now).miss.trip

/-- The next check is the 101st, and six failures are enough to exceed the rate then. -/
def Window.Lifts (now : ℕ) (w : Window) : Prop := (w.roll now).checks = 100 ∧ 6 ≤ (w.roll now).failures

instance (now : ℕ) (w : Window) : Decidable (w.Lifts now) := inferInstanceAs (Decidable (_ ∧ _))

/-- A contract that is open to proofs has not exceeded the rate. -/
def Window.Sound (w : Window) : Prop := w.paused = false → ¬ w.Exceeded

/-- No more failures than checks. -/
def Window.Counted (w : Window) : Prop := w.failures ≤ w.checks

@[simp] theorem roll_paused (now : ℕ) (w : Window) : (w.roll now).paused = w.paused := by
  rw [Window.roll]
  split <;> rfl

variable {valid : Bool} {e : Revert} {s : State} {win : Window} {batchRoot : Word} {used : Word → Bool} {now : ℕ}

theorem roll_counted {w : Window} (h : w.Counted) : (w.roll now).Counted := by
  rw [Window.roll]
  split
  · exact Nat.le_refl 0
  · exact h

theorem pass_counted {w : Window} (h : w.Counted) : (w.pass now).Counted :=
  Nat.le_succ_of_le (roll_counted h)

theorem fail_counted {w : Window} (h : w.Counted) : (w.fail now).Counted :=
  Nat.succ_le_succ (roll_counted h)

theorem roll_not_exceeded {w : Window} (h : ¬ w.Exceeded) : ¬ (w.roll now).Exceeded := by
  rw [Window.roll]
  split
  · exact fun hx => absurd hx.1 (Nat.not_lt_zero 100)
  · exact h

/-- An accepted proof lowers the rate; only the 101st check can bring it into view. -/
theorem pass_sound {w : Window} (h : w.Sound) (hl : w.paused = false → ¬ w.Lifts now) : (w.pass now).Sound := by
  intro hp hx
  have hroll : ¬ (w.roll now).Exceeded := roll_not_exceeded (h hp)
  have hlift := hl hp
  obtain ⟨hmany, hrate⟩ := hx
  change 100 < (w.roll now).checks + 1 at hmany
  change 500 < (w.roll now).failures * 10000 / ((w.roll now).checks + 1) at hrate
  rw [Window.Lifts] at hlift
  by_cases hfull : (w.roll now).checks = 100
  · rw [hfull] at hrate
    omega
  · refine hroll ⟨by omega, ?_⟩
    exact Nat.lt_of_lt_of_le hrate (Nat.div_le_div_left (Nat.le_succ _) (by omega))

theorem fail_sound (now : ℕ) (w : Window) : (w.fail now).Sound := by
  intro hp hx
  obtain ⟨-, hcalm⟩ := Bool.or_eq_false_iff.mp hp
  exact of_decide_eq_false hcalm hx

/-! ## What a transaction does to it -/

section Moves

-- as a literal the length of the window would be counted down
attribute [local irreducible] failureWindow

variable {m : Msg} {p : Peers} {circuitId programVKey nullifier : Word} {publicValues proofBytes : List UInt8}
  {ns : List Word} {reason : String} {w w' : World} {b : Bool} {record : World → Except Revert World}

/-- The rate is computed with checked arithmetic. -/
theorem breakerTripped_yields (s : State) :
    Yields (fun tripped => tripped = decide (window s).Exceeded) (· = .panic) (breakerTripped s) := by
  rw [breakerTripped]
  split
  · rename_i hmany
    refine yields_bind (yields_mulU rfl) fun scaled hs => ?_
    rw [hs.2]
    show decide _ = decide _
    rw [decide_eq_decide]
    exact ⟨fun hrate => ⟨hmany, hrate⟩, fun hx => hx.2⟩
  · rename_i hfew
    show false = decide _
    rw [eq_comm, decide_eq_false_iff_not]
    exact fun hx => hfew hx.1

theorem checkCircuitBreaker_yields (h : ¬ (window s).Exceeded) :
    Yields (fun _ => True) (· = .panic) (checkCircuitBreaker s) := by
  refine yields_bind (breakerTripped_yields s) fun tripped ht => ?_
  rw [ht, decide_eq_false h, revertIf_of_not _ Bool.false_ne_true]
  exact trivial

theorem rollWindow_yields (s : State) :
    Yields (fun s' => window s' = (window s).roll m.timestamp) (· = .panic) (rollWindow m s) := by
  rw [rollWindow]
  refine yields_bind (yields_addU rfl) fun windowEnd he => ?_
  obtain ⟨-, rfl⟩ := he
  split <;> rename_i hover
  · exact (if_pos hover).symm
  · exact (if_neg hover).symm

theorem updateMetrics_yields (s : State) :
    Yields (fun s' => window s' = (window s).pass m.timestamp) (· = .panic) (updateMetrics m s) := by
  rw [updateMetrics]
  refine yields_bind (rollWindow_yields s) fun rolled hw => ?_
  refine yields_bind (yields_addU rfl) fun checks hc => ?_
  obtain ⟨-, rfl⟩ := hc
  show (⟨(window rolled).start, (window rolled).failures, (window rolled).checks + 1,
    (window rolled).paused⟩ : Window) = _
  rw [hw, Window.pass, roll_paused]

/-- A failure is counted, and exceeding the rate pauses a contract that is open. -/
theorem evaluateCircuitBreaker_yields (w : World) : Yields (fun w' => window w'.state = (window w.state).miss.trip)
      (fun e => e = .panic ∨ e = .enforcedPause ∧ w.state.paused = true) (evaluateCircuitBreaker w) := by
  refine yields_bind (yields_addU (.inl rfl)) fun failures hf => ?_
  rw [hf.2]
  refine yields_bind ((breakerTripped_yields _).mono (fun _ h => h) fun _ => .inl) fun tripped ht => ?_
  have hx : tripped = decide (window w.state).miss.Exceeded := ht
  rw [Window.trip, ← hx]
  cases tripped with
  | true =>
    rw [if_pos rfl, Bool.or_true]
    refine yields_revertIf_bind (fun hp => .inr ⟨rfl, hp⟩) fun _ => ?_
    exact rfl
  | false =>
    rw [if_neg Bool.false_ne_true, Bool.or_false]
    exact rfl

/-- The gateway accepts, or there is none. -/
def accepts (p : Peers) (s : State) (programVKey : Word) (publicValues proofBytes : List UInt8) : Bool :=
  decide (s.sp1Gateway = 0) || decide (p.gateway programVKey publicValues proofBytes = .accepts)

theorem verifyViaSP1_yields (w : World) :
    Yields (fun r => r.1 = accepts p w.state programVKey publicValues proofBytes ∧ r.2.state = w.state) (· = .noCode)
      (verifyViaSP1 p ns programVKey publicValues proofBytes w) := by
  rw [verifyViaSP1, accepts]
  split
  · rename_i hmock
    exact ⟨by rw [hmock, decide_eq_true rfl, Bool.true_or], rfl⟩
  · rename_i hset
    rw [decide_eq_false hset, Bool.false_or]
    cases p.gateway programVKey publicValues proofBytes with
    | accepts => exact ⟨rfl, rfl⟩
    | rejects => exact ⟨rfl, rfl⟩
    | noCode => exact rfl

/-- What may go wrong: an overflow, a gateway without code, a rejection on a contract already paused. -/
def Fault (paused valid : Bool) (e : Revert) : Prop :=
  e = .panic ∨ e = .noCode ∨ e = .enforcedPause ∧ paused = true ∧ valid = false

/-- What is recorded of an accepted proof is none of the breaker's business. -/
def Aside (record : World → Except Revert World) : Prop :=
  ∀ w, Yields (fun w' => window w'.state = window w.state) (· = .panic) (record w)

/-- The window after a check. -/
def Window.observe (now : ℕ) (valid : Bool) (w : Window) : Window := if valid then w.pass now else w.fail now

/-- Every proof looked at is one check. -/
theorem ask_yields (hrecord : Aside record) (w : World) :
    let valid := accepts p w.state programVKey publicValues proofBytes
    Yields (fun r => r.1 = valid ∧ window r.2.state = (window w.state).observe m.timestamp valid)
      (Fault w.state.paused valid)
      (ask m p circuitId programVKey ns publicValues proofBytes nullifier reason record w) := by
  rw [ask]
  refine yields_bind ((verifyViaSP1_yields _).mono (fun _ h => h) fun _ h => .inr (.inl h)) fun r hr => ?_
  obtain ⟨isValid, asked⟩ := r
  have hvalid : isValid = accepts p w.state programVKey publicValues proofBytes := hr.1
  have hstate := hr.2
  have hwindow : window asked.state = window w.state := by
    rw [show asked.state = _ from hstate]
    rfl
  refine yields_bind ((updateMetrics_yields _).mono (fun _ h => h) fun _ => .inl) fun s hs => ?_
  rw [hwindow] at hs
  rw [show accepts p w.state programVKey publicValues proofBytes = isValid from hvalid.symm]
  cases isValid with
  | true =>
    refine yields_bind ((hrecord _).mono (fun _ h => h) fun _ => .inl) fun done hdone => ?_
    exact ⟨rfl, hdone.trans hs⟩
  | false =>
    refine yields_bind (Q := fun done => window done.state = (window s).miss.trip) ?_ fun done hdone => ?_
    · refine yields_bind (yields_addU (.inl rfl)) fun failed _ => ?_
      refine (evaluateCircuitBreaker_yields _).mono (fun _ h => h) fun e he => ?_
      obtain he | ⟨he, hp⟩ := he
      · exact .inl he
      · have hpaused : (window s).paused = true := hp
        rw [hs] at hpaused
        exact .inr (.inr ⟨he, hpaused, rfl⟩)
    · refine ⟨rfl, ?_⟩
      rw [show window _ = _ from hdone, hs]
      rfl

theorem prove_ensures {guard : State → Except Revert Unit} (hrecord : Aside record) (w : World) :
    let valid := accepts p w.state (w.state.circuits circuitId) publicValues proofBytes
    Ensures (fun r => r.1 = valid ∧ window r.2.state = (window w.state).observe m.timestamp valid)
      (prove m p circuitId ns publicValues proofBytes nullifier reason guard record w) := by
  iterate 4 refine ensures_skip fun _ => ?_
  exact fun r hr => (ask_yields hrecord w).ok hr

theorem countVerified_aside : Aside countVerified := fun _ => yields_bind (yields_addU rfl) fun _ _ => rfl

theorem recordProof_aside {keccak256 : List UInt8 → Word} :
    Aside (recordProof keccak256 m circuitId publicValues nullifier) :=
  fun w => yields_bind (countVerified_aside w) fun _ h => h

theorem recordCall_aside {keccak256 : List UInt8 → Word} {stateRoot : Word} {sourceBlock : ℕ}
    {targetContract : Address} :
    Aside (recordCall keccak256 m circuitId stateRoot sourceBlock targetContract publicValues nullifier) :=
  fun w => yields_bind (countVerified_aside w) fun _ h => yields_bind (yields_addU rfl) fun _ _ => h

theorem recordRecursive_aside {keccak256 : List UInt8 → Word} {parentNullifier : Word} {depth : ℕ} :
    Aside (recordRecursive keccak256 m parentNullifier publicValues nullifier depth) :=
  fun w => yields_bind (countVerified_aside w) fun _ h => yields_bind (yields_addU rfl) fun _ _ => h

theorem enterInner_window (inner : List Word) (w : World) :
    window (inner.foldl (enterInner m batchRoot nullifier) w).state = window w.state := by
  induction inner generalizing w with
  | nil => rfl
  | cons n inner ih =>
    rw [List.foldl_cons, ih]
    rfl

theorem recordRollup_aside {inner innerCircuitIds : List Word} :
    Aside (recordRollup m p batchRoot inner innerCircuitIds nullifier) := by
  intro w
  refine yields_bind (yields_addU rfl) fun _ _ => yields_bind (yields_addU rfl) fun _ _ => ?_
  refine yields_bind (yields_addU rfl) fun _ _ => ?_
  exact enterInner_window inner w

/-! ## Batches -/

inductive Verdict where
  | skipped | accepted | rejected
deriving DecidableEq

/-- What becomes of an item while the nullifiers `used` are spent. -/
def verdict (p : Peers) (s : State) (used : Word → Bool) (item : BatchItem) : Verdict :=
  if s.circuits item.circuitId = 0 ∨ used item.nullifier then .skipped
  else if accepts p s (s.circuits item.circuitId) item.publicValues item.proofBytes then .accepted
  else .rejected

/-- The verdicts of a batch; an item that is looked at spends its nullifier. -/
def verdicts (p : Peers) (s : State) : (Word → Bool) → List BatchItem → List Verdict
  | _, [] => []
  | used, item :: rest =>
    let v := verdict p s used item
    v :: verdicts p s (if v = .skipped then used else Function.update used item.nullifier true) rest

def Window.after (now : ℕ) (w : Window) : Verdict → Window
  | .skipped => w
  | .accepted => w.pass now
  | .rejected => w.fail now

/-- A rejected item finds the contract open, and an accepted one is not the 101st check of a
    window with six failures, unless the breaker has tripped already. -/
def Fits (now : ℕ) (w : Window) : Verdict → Prop
  | .skipped => True
  | .accepted => w.paused = false → ¬ w.Lifts now
  | .rejected => w.paused = false

instance (now : ℕ) (w : Window) : ∀ v, Decidable (Fits now w v)
  | .skipped => .isTrue trivial
  | .accepted => inferInstanceAs (Decidable (w.paused = false → ¬ w.Lifts now))
  | .rejected => inferInstanceAs (Decidable (w.paused = false))

abbrev Orderly (now : ℕ) : Window → List Verdict → Prop := Trace.Along (Window.after now) (Fits now)

section Batches

variable (keccak256 : List UInt8 → Word) (m : Msg) (p : Peers)

/-- One round of the loop with `results[i]`. -/
def verifyItemResult (w : World) (item : BatchItem) : Except Revert (Bool × World) :=
  let programVKey := w.state.circuits item.circuitId
  if programVKey = 0 ∨ w.state.usedNullifiers item.nullifier then .ok (false, w)
  else ask m p item.circuitId programVKey [item.nullifier] item.publicValues item.proofBytes item.nullifier
    "BatchItemFailed" (recordProof keccak256 m item.circuitId item.publicValues item.nullifier) w

def verifyItems : List BatchItem → World → Except Revert (List Bool × World)
  | [], w => .ok ([], w)
  | item :: rest, w => do
    let first ← verifyItemResult keccak256 m p w item
    let others ← verifyItems rest first.2
    .ok (first.1 :: others.1, others.2)

/-- `verifyProofBatch` with the array it returns. -/
def verifyProofBatchResults (circuitIds : List Word) (publicValuesArr proofBytesArr : List (List UInt8))
    (nullifiers : List Word) (w : World) : Except Revert (List Bool × World) := do
  revertIf w.state.paused .enforcedPause
  revertIf (circuitIds.length = 0 ∨ 20 < circuitIds.length ∨ publicValuesArr.length ≠ circuitIds.length
    ∨ proofBytesArr.length ≠ circuitIds.length ∨ nullifiers.length ≠ circuitIds.length) .invalidBatchParams
  verifyItems keccak256 m p (batchItems circuitIds publicValuesArr proofBytesArr nullifiers) w

theorem verifyItem_eq (w : World) (item : BatchItem) :
    verifyItem keccak256 m p w item = leave (verifyItemResult keccak256 m p w item) := by
  simp only [verifyItem, verifyItemResult, leave]
  split
  · rfl
  · cases ask m p item.circuitId (w.state.circuits item.circuitId) [item.nullifier] item.publicValues item.proofBytes
      item.nullifier "BatchItemFailed" (recordProof keccak256 m item.circuitId item.publicValues
        item.nullifier) w <;> rfl

theorem verifyItems_eq (items : List BatchItem) (w : World) :
    items.foldlM (verifyItem keccak256 m p) w = (verifyItems keccak256 m p items w).map Prod.snd := by
  induction items generalizing w with
  | nil => rfl
  | cons item rest ih =>
    rw [List.foldlM_cons, verifyItem_eq, verifyItems]
    cases verifyItemResult keccak256 m p w item with
    | error e => rfl
    | ok first =>
      show rest.foldlM (verifyItem keccak256 m p) first.2 = _
      rw [ih, ok_bind]
      cases verifyItems keccak256 m p rest first.2 <;> rfl

/-- The batch of the transactions is the batch with its results left out. -/
theorem verifyProofBatch_eq (circuitIds : List Word) (publicValuesArr proofBytesArr : List (List UInt8))
    (nullifiers : List Word) (w : World) :
    verifyProofBatch keccak256 m p circuitIds publicValuesArr proofBytesArr nullifiers w
      = (verifyProofBatchResults keccak256 m p circuitIds publicValuesArr proofBytesArr nullifiers w).map Prod.snd := by
  rw [verifyProofBatch, verifyProofBatchResults, verifyItems_eq]
  by_cases hp : w.state.paused = true
  · rw [revertIf_of _ hp]
    rfl
  · rw [revertIf_of_not _ hp]
    by_cases hbad : circuitIds.length = 0 ∨ 20 < circuitIds.length ∨ publicValuesArr.length ≠ circuitIds.length
        ∨ proofBytesArr.length ≠ circuitIds.length ∨ nullifiers.length ≠ circuitIds.length
    · rw [revertIf_of _ hbad]
      rfl
    · rw [revertIf_of_not _ hbad]
      rfl

end Batches

variable {keccak256 : List UInt8 → Word}

/-- What a check reads of the state. -/
def registry (s : State) : (Word → Word) × Address × (Word → Bool) := (s.circuits, s.sp1Gateway, s.usedNullifiers)

theorem evaluateCircuitBreaker_registry (w : World) :
    Ensures (fun w' => registry w'.state = registry w.state) (evaluateCircuitBreaker w) := by
  refine ensures_skip fun failures => ensures_skip fun tripped => ensures_ite ?_ (ensures_ok rfl)
  exact ensures_skip fun _ => ensures_ok rfl

theorem updateMetrics_registry (s : State) : Ensures (fun s' => registry s' = registry s) (updateMetrics m s) := by
  rw [updateMetrics]
  refine ensures_bind (Q := fun s' => registry s' = registry s) ?_ fun s' hs' => ensures_skip fun _ => ensures_ok hs'
  exact ensures_skip fun _ => ensures_ite (ensures_ok rfl) (ensures_ok rfl)

/-- A check spends its nullifier and leaves the circuits and the gateway alone. -/
theorem askItem_registry (w : World) : Ensures (fun r => registry r.2.state = registry (spend nullifier w.state))
      (ask m p circuitId programVKey ns publicValues proofBytes nullifier reason
        (recordProof keccak256 m circuitId publicValues nullifier) w) := by
  rw [ask]
  refine ensures_bind (Q := fun r => r.2.state = spend nullifier w.state) (fun r hr => ?_) fun r hr => ?_
  · exact ((verifyViaSP1_yields _).ok hr).2
  obtain ⟨isValid, asked⟩ := r
  have hspent : registry asked.state = registry (spend nullifier w.state) := congrArg registry hr
  refine ensures_bind (updateMetrics_registry _) fun s hs => ?_
  cases isValid with
  | true =>
    refine ensures_bind (Q := fun done => registry done.state = registry s) ?_ fun done hdone => ?_
    · refine ensures_bind (Q := fun counted => registry counted.state = registry s) ?_ fun _ h => ensures_ok h
      exact ensures_skip fun _ => ensures_ok rfl
    · exact ensures_ok (hdone.trans (hs.trans hspent))
  | false =>
    refine ensures_bind (Q := fun done => registry done.state = registry s) ?_ fun done hdone => ?_
    · exact ensures_skip fun _ => evaluateCircuitBreaker_registry _
    · exact ensures_ok (hdone.trans (hs.trans hspent))

theorem yields_and {ε α : Type} {Q R : α → Prop} {P : ε → Prop} {x : Except ε α} (h : Yields Q P x)
    (h' : Ensures R x) : Yields (fun a => Q a ∧ R a) P x := by
  cases x with
  | error e => exact h
  | ok a => exact ⟨h, h' a rfl⟩

theorem askItem_yields (w : World) :
    let valid := accepts p w.state programVKey publicValues proofBytes
    Yields (fun r => (r.1 = valid ∧ window r.2.state = (window w.state).observe m.timestamp valid)
        ∧ registry r.2.state = registry (spend nullifier w.state))
      (Fault w.state.paused valid)
      (ask m p circuitId programVKey ns publicValues proofBytes nullifier reason
        (recordProof keccak256 m circuitId publicValues nullifier) w) :=
  yields_and (ask_yields recordProof_aside w) (askItem_registry w)

/-- The part of the state a batch reads, with the nullifiers spent so far. -/
def Reads (s : State) (used : Word → Bool) (w : World) : Prop :=
  w.state.circuits = s.circuits ∧ w.state.sp1Gateway = s.sp1Gateway ∧ w.state.usedNullifiers = used

theorem accepts_congr {s' : State} (h : s'.sp1Gateway = s.sp1Gateway) :
    accepts p s' programVKey publicValues proofBytes = accepts p s programVKey publicValues proofBytes := by
  rw [accepts, accepts, h]

/-- The verdict on an item that is looked at. -/
def judge (valid : Bool) : Verdict := if valid then .accepted else .rejected

theorem observe_eq_after (now : ℕ) (valid : Bool) (w : Window) : w.observe now valid = w.after now (judge valid) := by
  cases valid <;> rfl

theorem fault_not_fits {w : Window} (h : Fault w.paused valid e) :
    e = .panic ∨ e = .noCode ∨ ¬ Fits now w (judge valid) := by
  obtain h | h | ⟨-, hp, rfl⟩ := h
  · exact .inl h
  · exact .inr (.inl h)
  · exact .inr (.inr fun hfits : w.paused = false => Bool.false_ne_true (hfits.symm.trans hp))

/-- One item: its result and the window follow from its verdict. -/
theorem verifyItemResult_yields (item : BatchItem) (hw : Reads s used w) :
    let v := verdict p s used item
    Yields (fun r => r.1 = decide (v = .accepted) ∧ window r.2.state = (window w.state).after m.timestamp v
        ∧ Reads s (if v = .skipped then used else Function.update used item.nullifier true) r.2)
      (fun e => e = .panic ∨ e = .noCode ∨ ¬ Fits m.timestamp (window w.state) v)
      (verifyItemResult keccak256 m p w item) := by
  obtain ⟨hcircuits, hgateway, hused⟩ := hw
  rw [verifyItemResult, verdict, hcircuits, hused]
  dsimp only
  by_cases hskip : s.circuits item.circuitId = 0 ∨ used item.nullifier = true
  · rw [if_pos hskip, if_pos hskip]
    exact ⟨rfl, rfl, hcircuits, hgateway, hused⟩
  · rw [if_neg hskip, if_neg hskip]
    have hjudge : (if accepts p s (s.circuits item.circuitId) item.publicValues item.proofBytes = true
        then Verdict.accepted else .rejected)
        = judge (accepts p w.state (s.circuits item.circuitId) item.publicValues item.proofBytes) := by
      rw [judge, accepts_congr hgateway]
    rw [hjudge]
    refine (askItem_yields w).mono (fun r hr => ?_) fun e he => fault_not_fits he
    obtain ⟨⟨hresult, hwindow⟩, hregistry⟩ := hr
    refine ⟨?_, hwindow.trans (observe_eq_after _ _ _), ?_⟩
    · rw [hresult]
      cases accepts p w.state (s.circuits item.circuitId) item.publicValues item.proofBytes <;> rfl
    · have hlooked : ∀ valid, judge valid ≠ .skipped := by
        intro valid
        cases valid <;> exact nofun
      obtain ⟨hc, hg, hu⟩ := Prod.mk.inj hregistry |>.imp id Prod.mk.inj
      refine ⟨hc.trans hcircuits, hg.trans hgateway, ?_⟩
      rw [if_neg (hlooked _), ← hused]
      exact hu

/-- A batch: its results and the window follow from the verdicts, and only an item that does
    not fit makes it revert. -/
theorem verifyItems_yields (items : List BatchItem) (hw : Reads s used w) :
    let vs := verdicts p s used items
    Yields (fun r => r.1 = vs.map (fun v => decide (v = .accepted))
        ∧ window r.2.state = Trace.run (Window.after m.timestamp) (window w.state) vs)
      (fun e => e = .panic ∨ e = .noCode ∨ ¬ Orderly m.timestamp (window w.state) vs)
      (verifyItems keccak256 m p items w) := by
  induction items generalizing used w with
  | nil => exact ⟨rfl, rfl⟩
  | cons item rest ih =>
    rw [verifyItems, verdicts]
    refine yields_bind ((verifyItemResult_yields item hw).mono (fun _ h => h) fun e he => ?_) fun first hfirst => ?_
    · exact he.imp id fun he => he.imp id fun hfits horderly => hfits horderly.1
    obtain ⟨hresult, hwindow, hreads⟩ := hfirst
    refine yields_bind ((ih hreads).mono (fun _ h => h) fun e he => ?_) fun others hothers => ?_
    · rw [hwindow] at he
      exact he.imp id fun he => he.imp id fun hrest horderly => hrest horderly.2
    · obtain ⟨hresults, hafter⟩ := hothers
      refine ⟨?_, ?_⟩
      · rw [hresult, hresults, List.map_cons]
      · rw [hafter, hwindow, Trace.run_cons]

/-! ## Transactions -/

/-- The counters are as before, and the contract is paused or not. -/
def SameCounts (w w' : World) : Prop := window w'.state = { window w.state with paused := w'.state.paused }

theorem sameCounts_of_window (h : window w'.state = window w.state) : SameCounts w w' := by
  have hp : w'.state.paused = w.state.paused := congrArg Window.paused h
  rw [SameCounts, h, hp]
  rfl

theorem SameCounts.trans {w'' : World} (h : SameCounts w w') (h' : SameCounts w' w'') : SameCounts w w'' := by
  rw [SameCounts, h', h]

theorem execConfig_counts (call : OpenCall) (s : State) :
    Ensures (fun s' => window s' = { window s with paused := s'.paused }
      ∧ (s'.paused = s.paused ∨ s'.paused = true ∨ call = .unpause)) (execConfig m call s) := by
  cases call with
  | registerCircuit | removeCircuit =>
    exact ensures_skip fun _ => ensures_skip fun _ => ensures_skip fun _ => ensures_ok ⟨rfl, .inl rfl⟩
  | setGateway | setMailbox | configureDomain | setStakeCheck =>
    exact ensures_skip fun _ => ensures_ok ⟨rfl, .inl rfl⟩
  | pause => exact ensures_skip fun _ => ensures_skip fun _ => ensures_ok ⟨rfl, .inr (.inl rfl)⟩
  | unpause => exact ensures_skip fun _ => ensures_skip fun _ => ensures_ok ⟨rfl, .inr (.inr rfl)⟩
  | handle origin sender body => exact ensures_ok ⟨rfl, .inl rfl⟩

theorem handle_window {origin : ℕ} {sender : Word} {body : List UInt8} (w : World) :
    Ensures (fun w' => window w'.state = window w.state) (handle m origin sender body w) := by
  refine ensures_skip fun _ => ensures_skip fun _ => ?_
  cases decodePayload body with
  | none => exact ensures_error _
  | some msg => exact ensures_ite (ensures_ok rfl) (ensures_skip fun _ => ensures_ok rfl)

/-- A call without the guard leaves the counters alone, and only `unpause` opens the contract. -/
theorem execOpen_counts (call : OpenCall) (w : World) :
    Ensures (fun w' => SameCounts w w' ∧ (w'.state.paused = w.state.paused ∨ w'.state.paused = true ∨ call = .unpause))
      (execOpen m call w) := by
  have config : ∀ call, Ensures (fun w' => SameCounts w w' ∧ (w'.state.paused = w.state.paused
      ∨ w'.state.paused = true ∨ call = .unpause)) (execConfig m call w.state >>= fun s => .ok (w.put s)) :=
    fun call => ensures_bind (execConfig_counts call w.state) fun _ h => ensures_ok h
  cases call with
  | handle origin sender body =>
    intro w' h
    have hw := handle_window w w' h
    exact ⟨sameCounts_of_window hw, .inl (congrArg Window.paused hw)⟩
  | registerCircuit | removeCircuit | setGateway | setMailbox | configureDomain | setStakeCheck | pause | unpause =>
    exact config _

theorem calls_counts (calls : List (Msg × OpenCall)) (w : World) : SameCounts w (Trace.run play w calls) := by
  refine Trace.run_invariant (SameCounts w) calls rfl fun w' n hw' => ?_
  rw [play]
  split
  · rename_i w'' hexec
    exact hw'.trans (execOpen_counts n.2 w' w'' hexec).1
  · exact hw'

theorem contact_counts {r : Reply} (w : World) : Ensures (SameCounts w) (contact e r w) :=
  ensures_ite (ensures_ok (calls_counts r.calls w)) (ensures_error e)

theorem dispatchProof_counts {destDomain value : ℕ} (w : World) :
    Ensures (SameCounts w) (dispatchProof m p circuitId nullifier destDomain value w) := by
  refine ensures_skip fun _ => ensures_skip fun relayed => ?_
  refine ensures_bind (contact_counts _) fun sent hsent => ?_
  have hs : SameCounts w (sent.emit (.proofRelayed circuitId nullifier destDomain p.messageId m.timestamp)) := hsent
  exact ensures_ite (fun w' h => hs.trans (contact_counts _ w' h)) (ensures_ok hs)

/-- The proof of a call that brings one. -/
def proofOf : Call → Option (Word × List UInt8 × List UInt8)
  | .verifyProof circuitId publicValues proofBytes _ => some (circuitId, publicValues, proofBytes)
  | .verifyComposedCall circuitId _ _ _ publicValues proofBytes _ => some (circuitId, publicValues, proofBytes)
  | .relayProofCrossChain _ circuitId publicValues proofBytes _ _ => some (circuitId, publicValues, proofBytes)
  | .verifyWithStakeCheck circuitId publicValues proofBytes _ => some (circuitId, publicValues, proofBytes)
  | .settleRollupBatch circuitId _ _ _ publicValues proofBytes _ => some (circuitId, publicValues, proofBytes)
  | .verifyRecursiveProof circuitId _ publicValues proofBytes _ _ => some (circuitId, publicValues, proofBytes)
  | _ => none

def batchVerdicts (p : Peers) (s : State) (circuitIds : List Word) (publicValuesArr proofBytesArr : List (List UInt8))
    (nullifiers : List Word) : List Verdict :=
  verdicts p s s.usedNullifiers (batchItems circuitIds publicValuesArr proofBytesArr nullifiers)

/-- What a transaction that does not revert does to the window. -/
inductive Moved (w : World) (tx : Tx) (w' : World) : Prop where
  | proof (circuitId : Word) (publicValues proofBytes : List UInt8)
      (hcall : proofOf tx.call = some (circuitId, publicValues, proofBytes)) (hopen : w.state.paused = false)
      (hw : window w'.state = { (window w.state).observe tx.msg.timestamp
        (accepts tx.peers w.state (w.state.circuits circuitId) publicValues proofBytes) with
          paused := w'.state.paused })
      (hpaused : accepts tx.peers w.state (w.state.circuits circuitId) publicValues proofBytes = false →
        window w'.state = (window w.state).fail tx.msg.timestamp)
  | batch (circuitIds : List Word) (publicValuesArr proofBytesArr : List (List UInt8)) (nullifiers : List Word)
      (hcall : tx.call = .verifyProofBatch circuitIds publicValuesArr proofBytesArr nullifiers)
      (hopen : w.state.paused = false)
      (hw : window w'.state = Trace.run (Window.after tx.msg.timestamp) (window w.state)
        (batchVerdicts tx.peers w.state circuitIds publicValuesArr proofBytesArr nullifiers))
  | config (hw : SameCounts w w')
      (hopen : w'.state.paused = w.state.paused ∨ w'.state.paused = true ∨ tx.call = .openCall .unpause)

theorem open_of_not_paused (h : ¬ w.state.paused = true) : w.state.paused = false := Bool.eq_false_iff.mpr h

theorem moved_of_check {tx : Tx} (hcall : proofOf tx.call = some (circuitId, publicValues, proofBytes))
    (hopen : w.state.paused = false)
    (hvalid : valid = accepts tx.peers w.state (w.state.circuits circuitId) publicValues proofBytes)
    (hw : window w'.state = (window w.state).observe tx.msg.timestamp valid) : Moved w tx w' := by
  refine .proof circuitId publicValues proofBytes hcall hopen ?_ fun hrejected => ?_
  · rw [← hvalid]
    have hp : w'.state.paused = ((window w.state).observe tx.msg.timestamp valid).paused := congrArg Window.paused hw
    rw [hp, hw]
  · rw [hw, hvalid, hrejected]
    rfl

theorem checkStake_same : Ensures (fun s' => window s' = window s ∧ s'.circuits = s.circuits
    ∧ s'.sp1Gateway = s.sp1Gateway) (checkStake p s) := by
  refine ensures_ite ?_ (ensures_ok ⟨rfl, rfl, rfl⟩)
  cases p.getStake with
  | none => exact ensures_error _
  | some stake => exact ensures_skip fun _ => ensures_skip fun _ => ensures_ok ⟨rfl, rfl, rfl⟩

/-- Every transaction that does not revert moves the window in one of three ways. -/
theorem exec_moved (tx : Tx) (w : World) : Ensures (Moved w tx) (exec keccak256 tx w) := by
  obtain ⟨m, call, p⟩ := tx
  intro w' h
  cases call with
  | verifyProof circuitId publicValues proofBytes nullifier =>
    obtain ⟨b, h⟩ := NullifierLedger.leave_ok h
    obtain ⟨hopen, h⟩ := guarded_iff.mp h
    obtain ⟨hvalid, hw⟩ := prove_ensures recordProof_aside w _ h
    exact moved_of_check rfl (open_of_not_paused hopen) hvalid (hvalid ▸ hw)
  | verifyComposedCall circuitId stateRoot sourceBlock targetContract publicValues proofBytes nullifier =>
    obtain ⟨b, h⟩ := NullifierLedger.leave_ok h
    obtain ⟨hopen, h⟩ := guarded_iff.mp h
    obtain ⟨hvalid, hw⟩ := prove_ensures recordCall_aside w _ h
    exact moved_of_check rfl (open_of_not_paused hopen) hvalid (hvalid ▸ hw)
  | verifyRecursiveProof circuitId parentNullifier publicValues proofBytes nullifier depth =>
    obtain ⟨b, h⟩ := NullifierLedger.leave_ok h
    obtain ⟨hopen, h⟩ := guarded_iff.mp h
    obtain ⟨hvalid, hw⟩ := prove_ensures recordRecursive_aside w _ h
    exact moved_of_check rfl (open_of_not_paused hopen) hvalid (hvalid ▸ hw)
  | settleRollupBatch circuitId batchRoot innerNullifiers innerCircuitIds publicValues proofBytes rollupNullifier =>
    obtain ⟨b, h⟩ := NullifierLedger.leave_ok h
    obtain ⟨hopen, h⟩ := guarded_iff.mp h
    obtain ⟨hvalid, hw⟩ := prove_ensures recordRollup_aside w _ h
    exact moved_of_check rfl (open_of_not_paused hopen) hvalid (hvalid ▸ hw)
  | verifyWithStakeCheck circuitId publicValues proofBytes nullifier =>
    obtain ⟨b, h⟩ := NullifierLedger.leave_ok h
    obtain ⟨hopen, h⟩ := guarded_iff.mp h
    obtain ⟨s, hs, h⟩ := bind_iff.mp h
    obtain ⟨hsame, hcircuits, hgateway⟩ := checkStake_same s hs
    obtain ⟨hvalid, hw⟩ := prove_ensures recordProof_aside (w.put s) _ h
    rw [World.put_state, hcircuits, accepts_congr hgateway] at hvalid hw
    rw [hsame] at hw
    exact moved_of_check rfl (open_of_not_paused hopen) hvalid (hvalid ▸ hw)
  | relayProofCrossChain value circuitId publicValues proofBytes nullifier destDomain =>
    obtain ⟨hopen, h⟩ := guarded_iff.mp h
    obtain ⟨-, h⟩ := guarded_iff.mp h
    obtain ⟨-, h⟩ := guarded_iff.mp h
    obtain ⟨-, h⟩ := guarded_iff.mp h
    obtain ⟨⟨ok, proved⟩, hproved, h⟩ := bind_iff.mp h
    obtain ⟨hok, h⟩ := guarded_iff.mp h
    obtain ⟨hvalid, hw⟩ := prove_ensures recordProof_aside w _ hproved
    have hcounts : SameCounts proved w' := dispatchProof_counts proved w' h
    refine .proof circuitId publicValues proofBytes rfl (open_of_not_paused hopen) ?_ fun hrejected => ?_
    · rw [hcounts, hw]
    · have hfalse : ok = false := hvalid.trans hrejected
      exact (hok fun htrue => Bool.false_ne_true (hfalse.symm.trans htrue)).elim
  | verifyProofBatch circuitIds publicValuesArr proofBytesArr nullifiers =>
    change verifyProofBatch keccak256 m p circuitIds publicValuesArr proofBytesArr nullifiers w = .ok w' at h
    rw [verifyProofBatch_eq] at h
    cases hr : verifyProofBatchResults keccak256 m p circuitIds publicValuesArr proofBytesArr nullifiers w with
    | error e =>
      rw [hr] at h
      cases h
    | ok r =>
      rw [hr] at h
      cases h
      obtain ⟨hopen, hr⟩ := guarded_iff.mp hr
      obtain ⟨-, hr⟩ := guarded_iff.mp hr
      have hitems := (verifyItems_yields _ ⟨rfl, rfl, rfl⟩).ok hr
      exact .batch circuitIds publicValuesArr proofBytesArr nullifiers rfl (open_of_not_paused hopen) hitems.2
  | openCall call =>
    obtain ⟨hcounts, hopen⟩ := execOpen_counts call w w' h
    exact .config hcounts (hopen.imp id fun h => h.imp id fun h => by rw [h])

end Moves

/-! ## Runs -/

variable {v : Verdict}

section Runs

variable {keccak256 : List UInt8 → Word} {w : World} {tx : Tx}

/-- A transaction the breaker is built for: the contract is not opened while the rate is
    exceeded, no accepted proof is the 101st check of a window with six failures, and a batch
    has no rejection after the one that trips the breaker. -/
structure Steady (w : World) (tx : Tx) : Prop where
  unpause : tx.call = .openCall .unpause → ¬ (window w.state).Exceeded
  proof : ∀ circuitId publicValues proofBytes, proofOf tx.call = some (circuitId, publicValues, proofBytes) →
    w.state.paused = false →
    accepts tx.peers w.state (w.state.circuits circuitId) publicValues proofBytes = true →
    ¬ (window w.state).Lifts tx.msg.timestamp
  batch : ∀ circuitIds publicValuesArr proofBytesArr nullifiers,
    tx.call = .verifyProofBatch circuitIds publicValuesArr proofBytesArr nullifiers → w.state.paused = false →
    Orderly tx.msg.timestamp (window w.state)
      (batchVerdicts tx.peers w.state circuitIds publicValuesArr proofBytesArr nullifiers)

/-- The transaction reverts, or it is steady. -/
def SteadyUnlessReverted (keccak256 : List UInt8 → Word) (w : World) (tx : Tx) : Prop :=
  ∀ w', exec keccak256 tx w = .ok w' → Steady w tx

theorem after_counted (h : win.Counted) : (win.after now v).Counted := by
  cases v with
  | skipped => exact h
  | accepted => exact pass_counted h
  | rejected => exact fail_counted h

theorem after_sound (hfits : Fits now win v) (h : win.Sound) : (win.after now v).Sound := by
  cases v with
  | skipped => exact h
  | accepted => exact pass_sound h hfits
  | rejected => exact fail_sound now win

theorem observe_counted (h : win.Counted) : (win.observe now valid).Counted := by
  rw [observe_eq_after]
  exact after_counted h

variable {w' : World}

theorem moved_counted (h : Moved w tx w') (hw : (window w.state).Counted) : (window w'.state).Counted := by
  cases h with
  | proof circuitId publicValues proofBytes hcall hopen hwindow hpaused =>
    rw [hwindow]
    exact observe_counted hw
  | batch circuitIds publicValuesArr proofBytesArr nullifiers hcall hopen hwindow =>
    rw [hwindow]
    exact Trace.run_invariant Window.Counted _ hw fun _ _ => after_counted
  | config hcounts hopen =>
    rw [hcounts]
    exact hw

/-- A steady transaction leaves no open contract with an exceeded rate. -/
theorem moved_sound (hsteady : Steady w tx) (h : Moved w tx w') (hw : (window w.state).Sound) :
    (window w'.state).Sound := by
  cases h with
  | proof circuitId publicValues proofBytes hcall hopen hwindow hpaused =>
    cases hvalid : accepts tx.peers w.state (w.state.circuits circuitId) publicValues proofBytes with
    | true =>
      rw [hvalid] at hwindow
      have hpass := pass_sound hw fun _ => hsteady.proof circuitId publicValues proofBytes hcall hopen hvalid
      rw [hwindow]
      exact fun _ hx => hpass hopen hx
    | false =>
      rw [hpaused hvalid]
      exact fail_sound _ _
  | batch circuitIds publicValuesArr proofBytesArr nullifiers hcall hopen hwindow =>
    rw [hwindow]
    have horderly := hsteady.batch circuitIds publicValuesArr proofBytesArr nullifiers hcall hopen
    exact horderly.keeps Window.Sound hw fun _ _ => after_sound
  | config hcounts hopen =>
    rw [hcounts]
    intro hp hx
    obtain hsame | hpaused | hunpause := hopen
    · exact hw (hsame.symm.trans hp) hx
    · exact Bool.false_ne_true (hp.symm.trans hpaused)
    · exact hsteady.unpause hunpause hx

theorem step_counted (hw : (window w.state).Counted) : (window (step keccak256 w tx).state).Counted := by
  rw [step]
  split
  · rename_i w' hexec
    exact moved_counted (exec_moved tx w w' hexec) hw
  · exact hw

theorem step_sound (hsteady : SteadyUnlessReverted keccak256 w tx) (hw : (window w.state).Sound) :
    (window (step keccak256 w tx).state).Sound := by
  rw [step]
  split
  · rename_i w' hexec
    exact moved_sound (hsteady w' hexec) (exec_moved tx w w' hexec) hw
  · exact hw

/-- A proof offered later than an hour after the window began is not refused by the breaker. -/
def Clears (keccak256 : List UInt8 → Word) (w : World) : Prop :=
  ∀ (m : Msg) (p : Peers) (circuitId : Word) (publicValues proofBytes : List UInt8) (nullifier : Word),
    w.state.failureWindowStart + failureWindow < m.timestamp → w.state.paused = false →
    w.state.circuits circuitId ≠ 0 → w.state.usedNullifiers nullifier = false →
    verifyProof keccak256 m p circuitId publicValues proofBytes nullifier w ≠ .error .circuitBreakerActive

/-- A batch reverts on no account of its items, returns false for each that fails, and leaves
    the contract paused where the rate is exceeded at its end. -/
structure BatchKept (keccak256 : List UInt8 → Word) (w : World) (m : Msg) (p : Peers) (circuitIds : List Word)
    (publicValuesArr proofBytesArr : List (List UInt8)) (nullifiers : List Word) : Prop where
  reverts : Raises (fun e => e = .panic ∨ e = .noCode)
    (verifyProofBatchResults keccak256 m p circuitIds publicValuesArr proofBytesArr nullifiers w)
  results : ∀ r, verifyProofBatchResults keccak256 m p circuitIds publicValuesArr proofBytesArr nullifiers w = .ok r →
    r.1 = (batchVerdicts p w.state circuitIds publicValuesArr proofBytesArr nullifiers).map
      fun v => decide (v = .accepted)
  trips : ∀ r, verifyProofBatchResults keccak256 m p circuitIds publicValuesArr proofBytesArr nullifiers w = .ok r →
    (window r.2.state).Exceeded → r.2.state.paused = true

/-- The four arrays of a batch have one length of 1 to 20. -/
def WellFormed (circuitIds : List Word) (publicValuesArr proofBytesArr : List (List UInt8)) (nullifiers : List Word) :
    Prop :=
  0 < circuitIds.length ∧ circuitIds.length ≤ 20 ∧ publicValuesArr.length = circuitIds.length
    ∧ proofBytesArr.length = circuitIds.length ∧ nullifiers.length = circuitIds.length

theorem clears_of_sound (hw : (window w.state).Sound) : Clears keccak256 w := by
  intro m p circuitId publicValues proofBytes nullifier _ hopen hcircuit hunused herror
  rw [verifyProof, guarded_of_not (Bool.eq_false_iff.mp hopen), verifyProofInternal, prove] at herror
  have hcheck := checkCircuitBreaker_yields (hw hopen)
  cases hbreaker : checkCircuitBreaker w.state with
  | error e =>
    rw [hbreaker] at herror hcheck
    have hpanic : e = .panic := hcheck
    rw [hpanic] at herror
    cases Except.error.inj herror
  | ok u =>
    rw [hbreaker, ok_bind] at herror
    dsimp only at herror
    rw [guarded_of_not hcircuit, guarded_of_not (Bool.eq_false_iff.mp hunused), ok_bind] at herror
    have hask := (ask_yields recordProof_aside w).raises _ herror
    obtain h | h | h := hask
    · cases h
    · cases h
    · cases h.1

theorem batch_kept {m : Msg} {p : Peers} {circuitIds : List Word} {publicValuesArr proofBytesArr : List (List UInt8)}
    {nullifiers : List Word} (hw : (window w.state).Sound) (hopen : w.state.paused = false)
    (hformed : WellFormed circuitIds publicValuesArr proofBytesArr nullifiers)
    (horderly : Orderly m.timestamp (window w.state)
      (batchVerdicts p w.state circuitIds publicValuesArr proofBytesArr nullifiers)) :
    BatchKept keccak256 w m p circuitIds publicValuesArr proofBytesArr nullifiers := by
  obtain ⟨hsome, hfew, hvalues, hproofs, hnullifiers⟩ := hformed
  have hguard : ¬ (circuitIds.length = 0 ∨ 20 < circuitIds.length ∨ publicValuesArr.length ≠ circuitIds.length
      ∨ proofBytesArr.length ≠ circuitIds.length ∨ nullifiers.length ≠ circuitIds.length) := by
    omega
  have hitems : verifyProofBatchResults keccak256 m p circuitIds publicValuesArr proofBytesArr nullifiers w
      = verifyItems keccak256 m p (batchItems circuitIds publicValuesArr proofBytesArr nullifiers) w := by
    rw [verifyProofBatchResults, guarded_of_not (Bool.eq_false_iff.mp hopen), guarded_of_not hguard]
  have hyields : Yields
      (fun r : List Bool × World => r.1 =
        (batchVerdicts p w.state circuitIds publicValuesArr proofBytesArr nullifiers).map
          (fun v => decide (v = .accepted))
        ∧ window r.2.state = Trace.run (Window.after m.timestamp) (window w.state)
          (batchVerdicts p w.state circuitIds publicValuesArr proofBytesArr nullifiers))
      (fun e => e = .panic ∨ e = .noCode ∨ ¬ Orderly m.timestamp (window w.state)
        (batchVerdicts p w.state circuitIds publicValuesArr proofBytesArr nullifiers))
      (verifyItems keccak256 m p (batchItems circuitIds publicValuesArr proofBytesArr nullifiers) w) :=
    verifyItems_yields _ ⟨rfl, rfl, rfl⟩
  constructor
  case reverts =>
    rw [hitems]
    intro e he
    exact (hyields.raises e he).imp id fun h => h.resolve_right fun hbad => hbad horderly
  case results =>
    rw [hitems]
    exact fun r hr => (hyields.ok hr).1
  case trips =>
    rw [hitems]
    intro r hr hx
    have hsound : (window r.2.state).Sound := by
      rw [(hyields.ok hr).2]
      exact horderly.keeps Window.Sound hw fun _ _ => after_sound
    exact Bool.not_eq_false _ |>.mp fun hclosed => hsound hclosed hx

theorem start_sound (sp1Gateway : Address) (now : ℕ) : (window (start sp1Gateway now).state).Sound :=
  fun _ hx => Nat.not_lt_zero 100 hx.1

/-- **BREAKER**: there are never more failures than checks.  Where every transaction of a run
    reverted or was steady, the breaker refuses no proof once the hour is over, and a batch with no rejection
    after the one that trips it returns its verdicts and pauses on an exceeded rate. -/
theorem breaker_kept (keccak256 : List UInt8 → Word) (sp1Gateway : Address) (now : ℕ) (txs : List Tx) :
    (window (run keccak256 (start sp1Gateway now) txs).state).Counted
    ∧ (Trace.Along (step keccak256) (SteadyUnlessReverted keccak256) (start sp1Gateway now) txs →
      Clears keccak256 (run keccak256 (start sp1Gateway now) txs)
      ∧ ∀ (m : Msg) (p : Peers) circuitIds publicValuesArr proofBytesArr nullifiers,
        (run keccak256 (start sp1Gateway now) txs).state.paused = false →
        WellFormed circuitIds publicValuesArr proofBytesArr nullifiers →
        Orderly m.timestamp (window (run keccak256 (start sp1Gateway now) txs).state)
          (batchVerdicts p (run keccak256 (start sp1Gateway now) txs).state circuitIds publicValuesArr proofBytesArr
            nullifiers) →
        BatchKept keccak256 (run keccak256 (start sp1Gateway now) txs) m p circuitIds publicValuesArr proofBytesArr
          nullifiers) := by
  refine ⟨?_, fun hsteady => ?_⟩
  · exact Trace.run_invariant (fun w : World => (window w.state).Counted) txs (Nat.le_refl 0) fun _ _ => step_counted
  · have hsound := hsteady.keeps (fun w : World => (window w.state).Sound) (start_sound sp1Gateway now)
      fun _ _ => step_sound
    exact ⟨clears_of_sound hsound, fun m p _ _ _ _ hopen hformed horderly => batch_kept hsound hopen hformed horderly⟩

end Runs

/-! ## A breaker that trips, and one that does not clear -/

/-- The account 0xAD holds every role, the gateway rejects an empty proof. -/
def txAt (time : ℕ) (call : Call) : Tx where
  msg := {
    sender := 0xAD
    timestamp := time
    holds := fun _ => true }
  call := call
  peers := NullifierLedger.samplePeers

/-- 20 rejected proofs with nullifiers from `first` on. -/
def rejectedBatch (first : ℕ) : Call :=
  .verifyProofBatch (List.replicate 20 7) (List.replicate 20 []) (List.replicate 20 [])
    ((List.range' first 20).map (BitVec.ofNat 256))

def hundredTxs : List Tx :=
  txAt 0 (.openCall (.registerCircuit 7 0xABC)) :: [1, 21, 41, 61, 81].map fun first => txAt 0 (rejectedBatch first)

/-- The proof that trips the breaker, and an operator who opens the contract again. -/
def reopenedTxs : List Tx :=
  hundredTxs ++ [txAt 0 (.verifyProof 7 [] [] 101), txAt 0 (.openCall .unpause)]

def worldAfter (txs : List Tx) : World := run NullifierLedger.sampleKeccak (start 0x6A7E 0) txs

/-- The revert of a call. -/
def fault {α : Type} : Except Revert α → Option Revert
  | .ok _ => none
  | .error e => some e

theorem eq_error_of_fault {α : Type} {x : Except Revert α} (h : fault x = some e) : x = .error e := by
  cases x with
  | ok a => cases h
  | error e' =>
    rw [Option.some.inj h]

/-- An accepted proof, then a batch of an accepted and a rejected one. -/
theorem breaker_kept_sample :
    Clears NullifierLedger.sampleKeccak (worldAfter [txAt 0 (.openCall (.registerCircuit 7 0xABC)),
      txAt 0 (.verifyProof 7 [] [1] 1)])
    ∧ BatchKept NullifierLedger.sampleKeccak (worldAfter [txAt 0 (.openCall (.registerCircuit 7 0xABC)),
      txAt 0 (.verifyProof 7 [] [1] 1)]) (txAt 60 (.openCall .pause)).msg NullifierLedger.samplePeers
      [7, 7] [[], []] [[1], []] [2, 3] := by
  have hregister : ∀ w, Steady w (txAt 0 (.openCall (.registerCircuit 7 0xABC))) := fun w =>
    ⟨fun h => (nomatch h), fun _ _ _ h => (nomatch h), fun _ _ _ _ h => (nomatch h)⟩
  have hproof : Steady (worldAfter [txAt 0 (.openCall (.registerCircuit 7 0xABC))])
      (txAt 0 (.verifyProof 7 [] [1] 1)) :=
    ⟨fun h => (nomatch h), fun _ _ _ _ _ _ => (by decide +kernel), fun _ _ _ _ h => (nomatch h)⟩
  have hkept := (breaker_kept NullifierLedger.sampleKeccak 0x6A7E 0 [txAt 0 (.openCall (.registerCircuit 7 0xABC)),
    txAt 0 (.verifyProof 7 [] [1] 1)]).2 ⟨fun _ _ => hregister _, fun _ _ => hproof, trivial⟩
  exact ⟨hkept.1, hkept.2 _ _ _ _ _ _ (by decide +kernel) ⟨by decide, by decide, rfl, rfl, rfl⟩ (by decide +kernel)⟩

/-- Two hours after the trip the opened contract refuses an accepted proof; and the first of two
    rejected proofs of a batch trips the breaker, the second reverts it. -/
theorem breaker_stuck : ¬ Clears NullifierLedger.sampleKeccak (worldAfter reopenedTxs)
    ∧ ¬ BatchKept NullifierLedger.sampleKeccak (worldAfter hundredTxs) (txAt 0 (.openCall .pause)).msg
      NullifierLedger.samplePeers [7, 7] [[], []] [[], []] [101, 102] := by
  constructor
  · intro h
    refine h (txAt 7200 (.openCall .pause)).msg NullifierLedger.samplePeers 7 [] [1] 102 ?_ ?_ ?_ ?_
      (eq_error_of_fault ?_)
    all_goals decide +kernel
  · intro h
    have hrevert := h.reverts .enforcedPause (eq_error_of_fault (by decide +kernel))
    exact absurd hrevert (by decide)

end CircuitBreaker
