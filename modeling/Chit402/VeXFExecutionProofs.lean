import Chit402.VeXFVotesProofs

/-! # The outcome of a proposal

    `executeProposal` compares the votes with an estimate of the total
    voting power that is taken when it is called, from what is locked then.
    The votes are final when voting ends; the estimate is not. -/

namespace VeXFExecution

open ExceptFlow Solidity Function VeXFGovernance VeXFVotes

/-! ## The checks -/

def totalBps : ℕ := 10000

inductive ExecRevert where
  | missingRole | invalidProposal | alreadyExecuted | votingNotEnded | quorumNotReached
  | supermajorityRequired | proposalRejected | executionFailed | invalidBPS | panic
deriving DecidableEq

def totalVotingPowerEstimate (totalLocked : ℕ) : Except ExecRevert ℕ := do
  let scaled ← mulU .panic totalLocked maxMultiplier
  .ok (scaled / 2)

def checkQuorum (requiredQuorum totalVotes totalLocked : ℕ) : Except ExecRevert Unit := do
  let estimatedTotal ← totalVotingPowerEstimate totalLocked
  if 0 < estimatedTotal then
    let scaled ← mulU .panic totalVotes totalBps
    let participation := scaled / estimatedTotal
    revertIf (participation < requiredQuorum) .quorumNotReached
  else .ok ()

def checkMajority (p : Proposal) (totalVotes : ℕ) : Except ExecRevert Unit :=
  if p.pType = .emergencyPause then
    if 0 < totalVotes then do
      let scaled ← mulU .panic p.forVotes 10000
      revertIf (scaled / totalVotes < 6700) .supermajorityRequired
    else .error .supermajorityRequired
  else revertIf (p.forVotes ≤ p.againstVotes) .proposalRejected

/-- What `executeProposal` asks of the votes. -/
def checks (quorumByType : ProposalType → ℕ) (totalLocked : ℕ) (p : Proposal) : Except ExecRevert Unit := do
  let totalVotes ← addU .panic p.forVotes p.againstVotes
  checkQuorum (quorumByType p.pType) totalVotes totalLocked
  checkMajority p totalVotes

/-! ## The contract with its execution -/

structure Governance where
  world : World
  quorumByType : ProposalType → ℕ

/-- `hook` says whether the call to the execution target returns. -/
def executeProposal (now proposalId : ℕ) (hasRole hook : Bool) (g : Governance) : Except ExecRevert Governance := do
  revertIf (hasRole = false) .missingRole
  let p := g.world.gov.proposals proposalId
  revertIf (p.id = 0) .invalidProposal
  revertIf p.executed .alreadyExecuted
  revertIf (now ≤ p.endTime) .votingNotEnded
  checks g.quorumByType g.world.gov.totalLocked p
  revertIf (hook = false) .executionFailed
  .ok { g with world := g.world.put { g.world.gov with
    proposals := update g.world.gov.proposals proposalId { p with executed := true } } }

def setQuorum (pType : ProposalType) (bps : ℕ) (hasRole : Bool) (g : Governance) : Except ExecRevert Governance := do
  revertIf (hasRole = false) .missingRole
  revertIf (totalBps < bps) .invalidBPS
  .ok { g with quorumByType := update g.quorumByType pType bps }

/-- A transaction of a user, or a call that needs a role. -/
inductive Op where
  | user (tx : Tx)
  | executeProposal (now proposalId : ℕ) (hasRole hook : Bool)
  | setQuorum (pType : ProposalType) (bps : ℕ) (hasRole : Bool)

section Run

variable (keccak256 : List UInt8 → Word)

def step (g : Governance) : Op → Governance
  | .user tx => { g with world := VeXFGovernance.step keccak256 g.world tx }
  | .executeProposal now proposalId hasRole hook =>
    match executeProposal now proposalId hasRole hook g with
    | .ok g' => { g' with world := { g'.world with now := now } }
    | .error _ => { g with world := { g.world with now := now } }
  | .setQuorum pType bps hasRole =>
    match setQuorum pType bps hasRole g with
    | .ok g' => g'
    | .error _ => g

def run (g : Governance) (ops : List Op) : Governance := Trace.run (step keccak256) g ops

end Run

def quorumAtDeploy : ProposalType → ℕ
  | .circuitPriority => 1000
  | .lpAllocation => 1500
  | .feeStructure => 2000
  | .treasurySpend => 2500
  | .emergencyPause => 500

def deployed (balance : Address → ℕ) : Governance where
  world := start balance
  quorumByType := quorumAtDeploy

/-! ## What the checks say -/

/-- The votes reach the quorum of what is locked. Nothing is asked when the estimate is zero. -/
def Quorate (requiredQuorum totalVotes totalLocked : ℕ) : Prop :=
  totalLocked * maxMultiplier < 2 ^ 256 ∧ (totalLocked * maxMultiplier / 2 = 0
    ∨ totalVotes * totalBps < 2 ^ 256 ∧ requiredQuorum * (totalLocked * maxMultiplier / 2) ≤ totalVotes * totalBps)

/-- A majority of the votes, for an emergency pause 67 of a hundred. -/
def Decided (p : Proposal) : Prop :=
  p.forVotes + p.againstVotes < 2 ^ 256 ∧
    if p.pType = .emergencyPause then 0 < p.forVotes + p.againstVotes ∧ p.forVotes * 10000 < 2 ^ 256
      ∧ 6700 * (p.forVotes + p.againstVotes) ≤ p.forVotes * 10000
    else p.againstVotes < p.forVotes

variable {approved : Bool} {later : List Tx} {tx : Tx} {amount id requiredQuorum totalLocked totalVotes : ℕ}

theorem checkQuorum_ok_iff :
    checkQuorum requiredQuorum totalVotes totalLocked = .ok () ↔ Quorate requiredQuorum totalVotes totalLocked := by
  unfold checkQuorum totalVotingPowerEstimate Quorate
  by_cases hfit : totalLocked * maxMultiplier < 2 ^ 256
  · rw [mulU, if_neg (Nat.not_le.2 hfit), ok_bind, ok_bind]
    by_cases hzero : totalLocked * maxMultiplier / 2 = 0
    · rw [hzero, if_neg (Nat.lt_irrefl 0)]
      exact ⟨fun _ => ⟨hfit, Or.inl rfl⟩, fun _ => rfl⟩
    · have hpos := Nat.pos_of_ne_zero hzero
      rw [if_pos hpos]
      simp only [bind_iff, mulU_ok_iff, revertIf_ok_iff, Nat.not_lt, Nat.le_div_iff_mul_le hpos]
      constructor
      · rintro ⟨_, ⟨hvotes, rfl⟩, hquorum⟩
        exact ⟨hfit, Or.inr ⟨hvotes, hquorum⟩⟩
      · rintro ⟨-, hzero' | ⟨hvotes, hquorum⟩⟩
        · exact (hzero hzero').elim
        · exact ⟨_, ⟨hvotes, rfl⟩, hquorum⟩
  · rw [mulU, if_pos (Nat.le_of_not_lt hfit)]
    constructor
    · nofun
    · exact fun h => (hfit h.1).elim

theorem checkMajority_ok_iff {p : Proposal} (hfit : p.forVotes + p.againstVotes < 2 ^ 256) :
    checkMajority p (p.forVotes + p.againstVotes) = .ok () ↔ Decided p := by
  unfold checkMajority Decided
  split_ifs with hpause hvotes
  · simp only [bind_iff, mulU_ok_iff, revertIf_ok_iff, Nat.not_lt, Nat.le_div_iff_mul_le hvotes]
    constructor
    · rintro ⟨_, ⟨hscaled, rfl⟩, hmajority⟩
      exact ⟨hfit, hvotes, hscaled, hmajority⟩
    · rintro ⟨-, -, hscaled, hmajority⟩
      exact ⟨_, ⟨hscaled, rfl⟩, hmajority⟩
  · exact ⟨fun h => (by cases h), fun h => (hvotes h.2.1).elim⟩
  · rw [revertIf_ok_iff, Nat.not_le]
    exact ⟨fun h => ⟨hfit, h⟩, fun h => h.2⟩

/-- **CHECKS**: a decision on the votes, and a bound on what is locked now. -/
theorem checks_ok_iff {quorumByType : ProposalType → ℕ} {p : Proposal} : checks quorumByType totalLocked p = .ok () ↔
      Decided p ∧ Quorate (quorumByType p.pType) (p.forVotes + p.againstVotes) totalLocked := by
  unfold checks
  simp only [bind_iff, addU_ok_iff]
  constructor
  · rintro ⟨_, ⟨hfit, rfl⟩, _, hquorum, hmajority⟩
    exact ⟨(checkMajority_ok_iff hfit).1 hmajority, checkQuorum_ok_iff.1 hquorum⟩
  · rintro ⟨hdecided, hquorum⟩
    exact ⟨_, ⟨hdecided.1, rfl⟩, (), checkQuorum_ok_iff.2 hquorum, (checkMajority_ok_iff hdecided.1).2 hdecided⟩

theorem Quorate.of_le {locked locked' : ℕ} (h : Quorate requiredQuorum totalVotes locked) (hle : locked' ≤ locked) :
    Quorate requiredQuorum totalVotes locked' := by
  have hscaled : locked' * maxMultiplier ≤ locked * maxMultiplier := Nat.mul_le_mul_right _ hle
  have hhalf : locked' * maxMultiplier / 2 ≤ locked * maxMultiplier / 2 := Nat.div_le_div_right hscaled
  refine ⟨Nat.lt_of_le_of_lt hscaled h.1, ?_⟩
  rcases h.2 with hzero | ⟨hvotes, hquorum⟩
  · exact Or.inl (Nat.le_zero.1 (hzero ▸ hhalf))
  · exact Or.inr ⟨hvotes, Nat.le_trans (Nat.mul_le_mul_left _ hhalf) hquorum⟩

/-! ## What a user can change -/

/-- The proposals as they were, and `totalLocked` as given. -/
structure Relocked (w w' : World) (totalLocked : ℕ) : Prop where
  proposals : w'.gov.proposals = w.gov.proposals
  count : w'.gov.proposalCount = w.gov.proposalCount
  total : w'.gov.totalLocked = totalLocked

section Users

variable {sender : Address} {now : ℕ} {w w' : World}

theorem lock_relocked {unlockTime : ℕ} (h : lock sender now amount unlockTime approved w = .ok w') :
    Relocked w w' (w.gov.totalLocked + amount) := by
  unfold lock at h
  simp only [bind_iff] at h
  obtain ⟨_, -, _, -, _, -, _, -, _, -, pulled, hpull, _, htotal, _, -, h⟩ := h
  obtain ⟨-, rfl⟩ := pullTokens_ok hpull
  obtain ⟨-, rfl⟩ := addU_ok_iff.1 htotal
  rw [writeLock_ok h]
  exact ⟨rfl, rfl, rfl⟩

theorem increaseLock_relocked {added : ℕ} (h : increaseLock sender now added approved w = .ok w') :
    Relocked w w' (w.gov.totalLocked + added) := by
  unfold increaseLock at h
  simp only [bind_iff] at h
  obtain ⟨_, -, _, -, _, -, pulled, hpull, _, -, _, htotal, h⟩ := h
  obtain ⟨-, rfl⟩ := pullTokens_ok hpull
  obtain ⟨-, rfl⟩ := addU_ok_iff.1 htotal
  rw [writeLock_ok h]
  exact ⟨rfl, rfl, rfl⟩

theorem extendLock_relocked {newUnlockTime : ℕ} (h : extendLock sender now newUnlockTime w = .ok w') :
    Relocked w w' w.gov.totalLocked := by
  unfold extendLock at h
  simp only [bind_iff] at h
  obtain ⟨_, -, _, -, _, -, _, -, h⟩ := h
  rw [writeLock_ok h]
  exact ⟨rfl, rfl, rfl⟩

theorem unlock_relocked (h : unlock sender now w = .ok w') :
    Relocked w w' (w.gov.totalLocked - (w.gov.locks sender).amount) := by
  unfold unlock pushTokens at h
  simp only [bind_iff] at h
  obtain ⟨_, -, _, -, _, htotal, _, -, h⟩ := h
  obtain ⟨-, rfl⟩ := subU_ok_iff.1 htotal
  rw [← Except.ok.inj h]
  exact ⟨rfl, rfl, rfl⟩

theorem transfer_relocked {dst : Address} (h : transfer sender dst amount w = .ok w') :
    Relocked w w' w.gov.totalLocked := by
  unfold transfer at h
  obtain ⟨_, -, h⟩ := bind_iff.1 h
  rw [← Except.ok.inj h]
  exact ⟨rfl, rfl, rfl⟩

theorem donate_relocked (h : donate sender amount w = .ok w') : Relocked w w' w.gov.totalLocked := by
  unfold donate at h
  obtain ⟨_, -, h⟩ := bind_iff.1 h
  rw [← Except.ok.inj h]
  exact ⟨rfl, rfl, rfl⟩

theorem createProposal_new {pType : ProposalType} {targetCircuit : Word} {description : String}
    {executionData : List UInt8}
    (h : createProposal sender now pType targetCircuit description executionData w = .ok w') :
    ∃ p, w'.gov = { w.gov with
      proposalCount := w.gov.proposalCount + 1
      proposals := update w.gov.proposals (w.gov.proposalCount + 1) p } := by
  unfold createProposal at h
  simp only [bind_iff] at h
  obtain ⟨_, -, _, -, id, hid, _, -, h⟩ := h
  obtain ⟨-, rfl⟩ := addU_ok_iff.1 hid
  rw [← Except.ok.inj h]
  exact ⟨_, rfl⟩

theorem vote_open {keccak256 : List UInt8 → Word} {support : Bool}
    (h : vote keccak256 sender now id support w = .ok w') :
    (w.gov.proposals id).id ≠ 0 ∧ now ≤ (w.gov.proposals id).endTime ∧ w'.gov.proposalCount = w.gov.proposalCount
      ∧ w'.gov.totalLocked = w.gov.totalLocked ∧ ∃ p, w'.gov.proposals = update w.gov.proposals id p := by
  unfold vote at h
  simp only [bind_iff, revertIf_ok_iff] at h
  obtain ⟨_, hknown, _, hopen, _, -, _, -, _, -, _, -, p, -, h⟩ := h
  rw [← Except.ok.inj h]
  exact ⟨hknown, Nat.le_of_not_lt hopen, rfl, rfl, p, rfl⟩

end Users

/-- A call that can add to what is locked. -/
def Adds : Call → Prop
  | .lock _ _ => True
  | .increaseLock _ => True
  | _ => False

/-- What a transaction of a user leaves: ended proposals, and the order of `totalLocked` by the kind of the call. -/
structure After (tx : Tx) (w w' : World) : Prop where
  ended : ∀ id ≤ w.gov.proposalCount, (w.gov.proposals id).endTime < tx.timestamp →
    w'.gov.proposals id = w.gov.proposals id
  count : w.gov.proposalCount ≤ w'.gov.proposalCount
  known : ∀ id, (w'.gov.proposals id).id ≠ 0 → id ≤ w'.gov.proposalCount ∨ (w.gov.proposals id).id ≠ 0
  more : tx.call ≠ .unlock → w.gov.totalLocked ≤ w'.gov.totalLocked
  less : ¬ Adds tx.call → w'.gov.totalLocked ≤ w.gov.totalLocked

theorem Relocked.after {w w' : World} {total : ℕ} (h : Relocked w w' total)
    (hmore : tx.call ≠ .unlock → w.gov.totalLocked ≤ total) (hless : ¬ Adds tx.call → total ≤ w.gov.totalLocked) :
    After tx w w' where
  ended := fun id _ _ => by rw [h.proposals]
  count := by rw [h.count]
  known := fun id hid => Or.inr (h.proposals ▸ hid)
  more := fun hcall => h.total ▸ hmore hcall
  less := fun hcall => h.total ▸ hless hcall

theorem exec_after {keccak256 : List UInt8 → Word} {w w' : World} (h : exec keccak256 tx w = .ok w') :
    After tx w w' := by
  obtain ⟨sender, timestamp, call, approved⟩ := tx
  cases call with
  | lock amount unlockTime =>
    exact (lock_relocked h).after (fun _ => Nat.le_add_right _ _) (fun hcall => (hcall trivial).elim)
  | increaseLock added =>
    exact (increaseLock_relocked h).after (fun _ => Nat.le_add_right _ _) (fun hcall => (hcall trivial).elim)
  | extendLock newUnlockTime => exact (extendLock_relocked h).after (fun _ => Nat.le_refl _) (fun _ => Nat.le_refl _)
  | unlock => exact (unlock_relocked h).after (fun hcall => (hcall rfl).elim) (fun _ => Nat.sub_le _ _)
  | transfer dst amount => exact (transfer_relocked h).after (fun _ => Nat.le_refl _) (fun _ => Nat.le_refl _)
  | donate amount => exact (donate_relocked h).after (fun _ => Nat.le_refl _) (fun _ => Nat.le_refl _)
  | createProposal pType targetCircuit description executionData =>
    obtain ⟨p, hgov⟩ := createProposal_new h
    refine ⟨?_, ?_, ?_, ?_, ?_⟩
    · intro id hid _
      rw [hgov]
      exact update_of_ne (by omega) _ _
    · rw [hgov]
      exact Nat.le_succ _
    · intro id hid
      rw [hgov] at hid ⊢
      by_cases hnew : id = w.gov.proposalCount + 1
      · exact Or.inl (Nat.le_of_eq hnew)
      · dsimp only at hid
        exact Or.inr (by rwa [update_of_ne hnew] at hid)
    · intro _
      rw [hgov]
    · intro _
      rw [hgov]
  | vote proposalId support =>
    obtain ⟨hknown, hopen, hcount, htotal, p, hproposals⟩ := vote_open h
    refine ⟨?_, Nat.le_of_eq hcount.symm, ?_, fun _ => Nat.le_of_eq htotal.symm, fun _ => Nat.le_of_eq htotal⟩
    · intro id _ hended
      rw [hproposals]
      refine update_of_ne ?_ _ _
      -- the proposal voted on is open
      rintro rfl
      exact absurd hended (Nat.not_lt.2 hopen)
    · intro id hid
      rw [hproposals] at hid
      by_cases hsame : id = proposalId
      · exact Or.inr (hsame ▸ hknown)
      · exact Or.inr (by rwa [update_of_ne hsame] at hid)

theorem step_after (keccak256 : List UInt8 → Word) (tx : Tx) (w : World) :
    After tx w (VeXFGovernance.step keccak256 w tx) := by
  unfold VeXFGovernance.step
  split
  · next w' h => exact ⟨(exec_after h).ended, (exec_after h).count, (exec_after h).known,
      (exec_after h).more, (exec_after h).less⟩
  · exact ⟨fun _ _ _ => rfl, Nat.le_refl _, fun _ hid => Or.inr hid, fun _ => Nat.le_refl _, fun _ => Nat.le_refl _⟩

/-! ## Runs -/

/-- Every proposal has an id up to the count. -/
def Numbered (w : World) : Prop := ∀ id, (w.gov.proposals id).id ≠ 0 → id ≤ w.gov.proposalCount

theorem After.numbered {w w' : World} (h : After tx w w') (hw : Numbered w) : Numbered w' := by
  intro id hid
  rcases h.known id hid with hle | hold
  · exact hle
  · exact Nat.le_trans (hw id hold) h.count

theorem step_numbered (keccak256 : List UInt8 → Word) (g : Governance) (op : Op) (hg : Numbered g.world) :
    Numbered (step keccak256 g op).world := by
  cases op with
  | user tx => exact (step_after keccak256 tx g.world).numbered hg
  | executeProposal now proposalId hasRole hook =>
    dsimp only [step]
    split
    · next g' h =>
      unfold executeProposal at h
      simp only [bind_iff, revertIf_ok_iff] at h
      obtain ⟨_, -, _, hknown, _, -, _, -, _, -, _, -, h⟩ := h
      rw [← Except.ok.inj h]
      intro id hid
      by_cases hsame : id = proposalId
      · exact hg id (hsame ▸ hknown)
      · refine hg id ?_
        dsimp only [World.put] at hid
        rwa [update_of_ne hsame] at hid
    · exact hg
  | setQuorum pType bps hasRole =>
    dsimp only [step]
    split
    · next g' h =>
      unfold setQuorum at h
      simp only [bind_iff, revertIf_ok_iff] at h
      obtain ⟨_, -, _, -, h⟩ := h
      rw [← Except.ok.inj h]
      exact hg
    · exact hg

theorem run_numbered (keccak256 : List UInt8 → Word) (balance : Address → ℕ) (ops : List Op) :
    Numbered (run keccak256 (deployed balance) ops).world := by
  refine Trace.run_invariant (fun g => Numbered g.world) ops ?_ fun g op hg => step_numbered keccak256 g op hg
  intro id hid
  exact (hid rfl).elim

/-- A world later than `w`, for an ended proposal. -/
structure Later (w : World) (id : ℕ) (w' : World) : Prop where
  same : w'.gov.proposals id = w.gov.proposals id
  count : w.gov.proposalCount ≤ w'.gov.proposalCount

/-- **FINAL VOTES**: once voting has ended no transaction changes the proposal. -/
theorem run_proposal (keccak256 : List UInt8 → Word) {w : World} (hknown : id ≤ w.gov.proposalCount)
    (htimes : ∀ tx ∈ later, (w.gov.proposals id).endTime < tx.timestamp) :
    Later w id (VeXFGovernance.run keccak256 w later) := by
  refine Trace.run_keeps (Later w id) ⟨rfl, Nat.le_refl _⟩ ?_
  rintro l tx r rfl ⟨hsame, hcount⟩
  have hafter := step_after keccak256 tx (Trace.run (VeXFGovernance.step keccak256) w l)
  have htime := htimes tx (by simp)
  exact ⟨(hafter.ended id (Nat.le_trans hknown hcount) (hsame.symm ▸ htime)).trans hsame,
    Nat.le_trans hcount hafter.count⟩

theorem run_more (keccak256 : List UInt8 → Word) {w : World} (hcalls : ∀ tx ∈ later, tx.call ≠ .unlock) :
    w.gov.totalLocked ≤ (VeXFGovernance.run keccak256 w later).gov.totalLocked := by
  refine Trace.run_keeps (fun w' : World => w.gov.totalLocked ≤ w'.gov.totalLocked) (Nat.le_refl _) ?_
  rintro l tx r rfl hle
  exact Nat.le_trans hle ((step_after keccak256 tx _).more (hcalls tx (by simp)))

theorem run_less (keccak256 : List UInt8 → Word) {w : World} (hcalls : ∀ tx ∈ later, ¬ Adds tx.call) :
    (VeXFGovernance.run keccak256 w later).gov.totalLocked ≤ w.gov.totalLocked := by
  refine Trace.run_keeps (fun w' : World => w'.gov.totalLocked ≤ w.gov.totalLocked) (Nat.le_refl _) ?_
  rintro l tx r rfl hle
  exact Nat.le_trans ((step_after keccak256 tx _).less (hcalls tx (by simp))) hle

/-- **OUTCOME**: after the end of voting the votes and the decision on them stand. The checks pass
    later exactly when the decision does and the votes reach the quorum of what is locked then; so
    less locked tokens never break the outcome, and more never bring it about. -/
theorem outcome_of_votes (keccak256 : List UInt8 → Word) (balance : Address → ℕ) (ops : List Op)
    (later : List Tx) (id : ℕ)
    (hid : ((run keccak256 (deployed balance) ops).world.gov.proposals id).id ≠ 0)
    (htimes : ∀ tx ∈ later, ((run keccak256 (deployed balance) ops).world.gov.proposals id).endTime < tx.timestamp) :
    let g := run keccak256 (deployed balance) ops
    let p := g.world.gov.proposals id
    let w' := VeXFGovernance.run keccak256 g.world later
    let passes := fun (totalLocked : ℕ) (p : Proposal) => checks g.quorumByType totalLocked p = .ok ()
    let quorate := Quorate (g.quorumByType p.pType) (p.forVotes + p.againstVotes)
    w'.gov.proposals id = p
      ∧ (passes g.world.gov.totalLocked p ↔ Decided p ∧ quorate g.world.gov.totalLocked)
      ∧ (passes w'.gov.totalLocked (w'.gov.proposals id) ↔ Decided p ∧ quorate w'.gov.totalLocked)
      ∧ ((∀ tx ∈ later, ¬ Adds tx.call) → passes g.world.gov.totalLocked p →
        passes w'.gov.totalLocked (w'.gov.proposals id))
      ∧ ((∀ tx ∈ later, tx.call ≠ .unlock) → passes w'.gov.totalLocked (w'.gov.proposals id) →
        passes g.world.gov.totalLocked p) := by
  intro g p w' passes quorate
  have hsame : w'.gov.proposals id = p :=
    (run_proposal keccak256 (run_numbered keccak256 balance ops id hid) htimes).same
  refine ⟨hsame, checks_ok_iff, hsame.symm ▸ checks_ok_iff, ?_, ?_⟩
  · intro hcalls hbefore
    obtain ⟨hdecided, hquorum⟩ := checks_ok_iff.1 hbefore
    rw [hsame]
    exact checks_ok_iff.2 ⟨hdecided, hquorum.of_le (run_less keccak256 hcalls)⟩
  · intro hcalls hafter
    rw [hsame] at hafter
    obtain ⟨hdecided, hquorum⟩ := checks_ok_iff.1 hafter
    exact checks_ok_iff.2 ⟨hdecided, hquorum.of_le (run_more keccak256 hcalls)⟩

/-! ## Tokens that leave after the vote -/

def whale : Address := 0xA11CE

def voter : Address := 0xB0B

def sampleDeployed : Governance := deployed fun u => if u = whale then 999000 else if u = voter then 1000 else 0

def asUser (sender : Address) (timestamp : ℕ) (call : Call) : Tx where
  sender := sender
  timestamp := timestamp
  call := call
  approved := true

/-- Both lock until one boundary, or the voter for longer; the voter proposes and votes two days before it. -/
def votedOps (voterLock : Tx) : List Op :=
  [asUser whale 1693440000 (.lock 999000 1709164800), voterLock,
    asUser voter 1708992000 (.createProposal .circuitPriority 0 "circuit" []),
      asUser voter 1708992000 (.vote 1 true)].map Op.user

def votedWorld (voterLock : Tx) : Governance := run (fun _ => 0) sampleDeployed (votedOps voterLock)

/-- The voter stays locked for 156 weeks. -/
def longLock : Tx := asUser voter 1708992000 (.lock 1000 1803513600)

/-- The voter's lock ends with the other one. -/
def shortLock : Tx := asUser voter 1693440000 (.lock 1000 1709164800)

/-- The checks of the first proposal, after some later transactions. -/
def checksAfter (voterLock : Tx) (later : List Tx) : Except ExecRevert Unit :=
  let w := VeXFGovernance.run (fun _ => 0) (votedWorld voterLock).world later
  checks (votedWorld voterLock).quorumByType w.gov.totalLocked (w.gov.proposals 1)

def leave (u : Address) : Tx := asUser u 1709251201 .unlock

/-- After the vote is over, a quorum that was missed is met when the others unlock; and when all have unlocked the
    estimate is zero and five votes do. -/
theorem outcome_moves : ((votedWorld longLock).world.gov.proposals 1).endTime < 1709251201
    ∧ checksAfter longLock [] = .error .quorumNotReached ∧ checksAfter longLock [leave whale] = .ok ()
    ∧ ((votedWorld shortLock).world.gov.proposals 1).endTime < 1709251201
    ∧ checksAfter shortLock [] = .error .quorumNotReached ∧ checksAfter shortLock [leave whale]
      = .error .quorumNotReached
    ∧ checksAfter shortLock [leave whale, leave voter] = .ok () := by
  decide +kernel

theorem outcome_of_votes_sample :
    (VeXFGovernance.run (fun _ => 0) (votedWorld longLock).world [leave whale]).gov.proposals 1
      = (votedWorld longLock).world.gov.proposals 1 := by
  have hid : ((votedWorld longLock).world.gov.proposals 1).id ≠ 0 := by decide +kernel
  have hended : ((votedWorld longLock).world.gov.proposals 1).endTime < 1709251201 := by decide +kernel
  refine (outcome_of_votes (fun _ => 0) _ (votedOps longLock) [leave whale] 1 hid ?_).1
  intro tx htx
  rw [List.mem_singleton.1 htx]
  exact hended

end VeXFExecution
