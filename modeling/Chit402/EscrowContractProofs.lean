import Chit402.EscrowStateProofs

/-! # The entry points of the escrow

    Every external function of `EquivocationEscrowV0`, in its order of
    checks, with the token calls threaded through an ERC-20 that moves
    exactly the requested amount.  A revert is an error, so a failed call
    has no state to keep.

    The token makes no calls of its own, so the reentrancy guard never
    fires and is left out. -/

namespace EscrowContract

open ExceptFlow Solidity EscrowState Function

inductive Revert where
  | wrongChain | zeroAddress | noTokenCode | wrongDecimals | kidMismatch | livenessFailed
  | notOwner | alreadyActive | notActive | listAlreadyPinned | listNotPinned | emptyListHash
  | aboveHighWater | duplicateHighWater | bondTooSmall | fundingMismatch | zeroAmount | tooEarly
  | noNotice | noticeAlreadyGiven | incidentOpen | coverageEnded | commitExists
  | tooManyOpenCommits | noCommit | commitTooYoung | commitExpired | zeroPayTo
  | notEquivocation | unknownKid | badSignature | excluded | badProof | duplicateEvidence
  | noPendingBounty | contestOpen | notAffected | claimsClosed | badCommitment | wrongAsset
  | alreadyClaimed | nothingToSettle | incidentClosed | anotherIncidentOpen | claimsOpen
  | notSettled | nothingToClaim
  | overflow | underflow | transferFailed
deriving DecidableEq

/-- A checked subtraction. -/
def sub (a b : Nat) : Except Revert Nat := if a < b then .error .underflow else .ok (a - b)

/-- A checked addition in an unsigned type of `width` bits. -/
def add (width a b : Nat) : Except Revert Nat :=
  if 2 ^ width ≤ a + b then .error .overflow else .ok (a + b)

variable {dst src : Address} {balanceOf : Address → Nat} {a amount b c : Nat}

theorem sub_ok_iff : sub a b = .ok c ↔ b ≤ a ∧ c = a - b := by
  rw [sub, ite_error_ok_iff, Nat.not_lt, Except.ok.injEq, eq_comm]

theorem add_ok_iff {w : Nat} : add w a b = .ok c ↔ a + b < 2 ^ w ∧ c = a + b := by
  rw [add, ite_error_ok_iff, Nat.not_le, Except.ok.injEq, eq_comm]

/-! ## The token -/

structure Transfer where
  src : Address
  dst : Address
  amount : Nat

/-- Balances, allowances to the escrow, and the `Transfer` events so far. -/
structure Token where
  balanceOf : Address → Nat
  allowance : Address → Nat
  transfers : List Transfer

/-- The balances after moving `amount`; a transfer to oneself changes nothing. -/
def move (balanceOf : Address → Nat) (src dst : Address) (amount : Nat) : Address → Nat :=
  let taken := update balanceOf src (balanceOf src - amount)
  update taken dst (taken dst + amount)

def safeTransfer (src dst : Address) (amount : Nat) (t : Token) : Except Revert Token :=
  if t.balanceOf src < amount then .error .transferFailed
  else .ok { t with
    balanceOf := move t.balanceOf src dst amount
    transfers := t.transfers ++ [{ src := src, dst := dst, amount := amount }] }

/-- An allowance of the largest `uint256` is not used up. -/
def safeTransferFrom (src dst : Address) (amount : Nat) (t : Token) : Except Revert Token :=
  if t.allowance src < amount then .error .transferFailed
  else safeTransfer src dst amount { t with
    allowance := if t.allowance src = 2 ^ 256 - 1 then t.allowance
      else update t.allowance src (t.allowance src - amount) }

/-- `if (amount != 0) TOKEN.safeTransfer(dst, amount)`. -/
def payOut (src dst : Address) (amount : Nat) (t : Token) : Except Revert Token :=
  if amount ≠ 0 then safeTransfer src dst amount t else .ok t

/-- The escrow and its token.  `donated` is no storage: it counts what others sent to
    the escrow outside `fund`. -/
structure World where
  escrow : State
  token : Token
  donated : Nat

/-! ## What the token does -/

theorem move_src (amount : Nat) (h : src ≠ dst) : move balanceOf src dst amount src = balanceOf src - amount := by
  rw [move, update_of_ne h, update_self]

theorem move_self (h : amount ≤ balanceOf src) : move balanceOf src src amount = balanceOf := by
  funext a
  by_cases ha : a = src
  · subst ha
    rw [move, update_self, update_self]
    omega
  · rw [move, update_of_ne ha, update_of_ne ha]

theorem move_zero (balanceOf : Address → Nat) (src dst : Address) : move balanceOf src dst 0 = balanceOf := by
  funext a
  by_cases ha : a = dst
  · subst ha
    by_cases hs : a = src
    · subst hs
      rw [move, update_self, update_self]
      rfl
    · rw [move, update_self, update_of_ne hs]
      rfl
  · rw [move, update_of_ne ha]
    by_cases hs : a = src
    · subst hs
      rw [update_self]
      rfl
    · rw [update_of_ne hs]

/-- The transfers a payment adds. -/
def paymentLog (src dst : Address) (amount : Nat) : List Transfer :=
  if amount = 0 then [] else [{ src := src, dst := dst, amount := amount }]

theorem payOut_ok_iff {t t' : Token} : payOut src dst amount t = .ok t' ↔ amount ≤ t.balanceOf src ∧ t' = { t with
      balanceOf := move t.balanceOf src dst amount
      transfers := t.transfers ++ paymentLog src dst amount } := by
  by_cases h0 : amount = 0
  · subst h0
    rw [payOut, if_neg (not_not.mpr rfl), move_zero, paymentLog, if_pos rfl, List.append_nil, Except.ok.injEq, eq_comm]
    exact ⟨fun h => ⟨Nat.zero_le _, h⟩, fun h => h.2⟩
  · rw [payOut, if_pos h0, safeTransfer, ite_error_ok_iff, Nat.not_lt, Except.ok.injEq, eq_comm, paymentLog, if_neg h0]

theorem safeTransfer_eq_payOut (t : Token) (h : amount ≠ 0) :
    safeTransfer src dst amount t = payOut src dst amount t := by
  rw [payOut, if_pos h]

/-! ## Deployment and owner calls -/

/-- `chainid`, and what the token answers about itself, are read from the chain. -/
def deploy (hashes : Hashes) (chainid tokenCodeLength tokenDecimals : Nat)
    (self owner token : Address) (kid pubX pubY logSalt : Word) (liveHead : TreeHead)
    (liveSig : Sig) : Except Revert Contract := do
  revertIf (chainid ≠ chainId) .wrongChain
  revertIf (owner = 0 ∨ token = 0) .zeroAddress
  revertIf (tokenCodeLength = 0) .noTokenCode
  revertIf (tokenDecimals ≠ 6) .wrongDecimals
  revertIf (thumbprintP256 hashes pubX pubY ≠ kid) .kidMismatch
  let C : Contract := {
    hashes := hashes
    chainid := chainid
    self := self
    owner := owner
    token := token
    kid := kid
    pubX := pubX
    pubY := pubY
    logSalt := logSalt
    treeHeadDomainSeparator := domainSeparator hashes "Chit402TreeHead" logSalt
    bindingDomainSeparator := domainSeparator hashes "Chit402ReceiptBinding" logSalt }
  revertIf (liveHead.kid ≠ kid) .livenessFailed
  revertIf (¬ p256 C (treeHeadDigest C liveHead) liveSig.r liveSig.s pubX pubY) .livenessFailed
  .ok C

variable (C : Contract) (m : Msg)

/-- The loop over the entries: each is below its epoch's high-water mark. -/
def quarantineEntries (highWater : List HeadRef) :
    List HeadRef → (Word → Bool) → Except Revert (Word → Bool)
  | [], quarantined => .ok quarantined
  | e :: entries, quarantined =>
    if highWater.any (fun hw => hw.epoch = e.epoch ∧ e.treeSize ≤ hw.treeSize) then
      quarantineEntries highWater entries
        (update quarantined (headRefKey C e.epoch e.treeSize e.root) true)
    else .error .aboveHighWater

def pinQuarantineList (listHash : Word) (entries highWater : List HeadRef) (s : State) :
    Except Revert State := do
  revertIf (m.sender ≠ C.owner) .notOwner
  revertIf (s.activatedAt ≠ 0) .alreadyActive
  revertIf s.listPinned .listAlreadyPinned
  revertIf (listHash = 0) .emptyListHash
  revertIf (¬ highWater.Pairwise fun a b => a.epoch ≠ b.epoch) .duplicateHighWater
  let quarantined ← quarantineEntries C highWater entries s.quarantined
  .ok { s with
    quarantined := quarantined
    listPinned := true
    quarantineListHash := listHash
    quarantineCount := entries.length }

def fund (amount : Nat) (w : World) : Except Revert World := do
  revertIf (m.sender ≠ C.owner) .notOwner
  revertIf w.escrow.closed .notActive
  revertIf (amount = 0) .zeroAmount
  let token ← safeTransferFrom m.sender C.self amount w.token
  revertIf (token.balanceOf C.self < w.token.balanceOf C.self
    ∨ token.balanceOf C.self - w.token.balanceOf C.self ≠ amount) .fundingMismatch
  .ok { w with
    token := token
    escrow := { w.escrow with bondAccounted := w.escrow.bondAccounted + amount } }

def activate (s : State) : Except Revert State := do
  revertIf (m.sender ≠ C.owner) .notOwner
  revertIf (s.activatedAt ≠ 0 ∨ s.closed) .alreadyActive
  revertIf (¬ s.listPinned) .listNotPinned
  revertIf (s.bondAccounted < minBond) .bondTooSmall
  .ok { s with activatedAt := m.timestamp % 2 ^ 64 }

def giveNotice (s : State) : Except Revert State := do
  revertIf (m.sender ≠ C.owner) .notOwner
  revertIf (s.activatedAt = 0 ∨ s.closed) .notActive
  revertIf (s.noticeAt ≠ 0) .noticeAlreadyGiven
  revertIf (m.timestamp < s.activatedAt + bondPeriod) .tooEarly
  .ok { s with noticeAt := m.timestamp % 2 ^ 64 }

def cancelNotice (s : State) : Except Revert State := do
  revertIf (m.sender ≠ C.owner) .notOwner
  revertIf s.closed .notActive
  revertIf (s.noticeAt = 0) .noNotice
  .ok { s with noticeAt := 0 }

/-- What a withdrawal leaves for accepted payouts; nothing before activation. -/
def withdrawReserve (s : State) : Except Revert Nat :=
  if s.activatedAt ≠ 0 then do
    revertIf (s.noticeAt = 0) .noNotice
    revertIf (m.timestamp < revealGraceEnd s) .tooEarly
    revertIf (frozen m.timestamp s) .incidentOpen
    let bountyRoom ← sub bountyCap s.bountiesPaid
    let bountyReserve := s.pendingBounties * bounty
    .ok (s.openRequested + if bountyReserve < bountyRoom then bountyReserve else bountyRoom)
  else .ok 0

def withdraw (w : World) : Except Revert World := do
  revertIf (m.sender ≠ C.owner) .notOwner
  revertIf w.escrow.closed .notActive
  let reserve ← withdrawReserve m w.escrow
  let kept := if w.escrow.bondAccounted < reserve then w.escrow.bondAccounted else reserve
  let amount ← sub w.escrow.bondAccounted kept
  let token ← payOut C.self C.owner amount w.token
  .ok { w with
    token := token
    escrow := { w.escrow with bondAccounted := kept, closed := true } }

/-! ## Commit -/

/-- The scan over the slots; `none` is the sentinel `MAX_OPEN_COMMITS`. -/
def scanSlots (s : State) (c : Word) :
    Option (Fin maxOpenCommits) → List (Fin maxOpenCommits) → Option (Fin maxOpenCommits)
  | slot, [] => slot
  | slot, i :: rest =>
    let h := s.commitSlots m.sender i
    if h = c then some i
    -- slots are filled in order and never cleared
    else if h = 0 then slot.or (some i)
    else
      let old := s.commits h
      scanSlots s c
        (slot.or (if old.committer = 0 ∨ expired m.timestamp old then some i else none)) rest

def commit (c : Word) (s : State) : Except Revert State := do
  revertIf s.closed .notActive
  revertIf (s.noticeAt ≠ 0 ∧ s.noticeAt + noticePeriod ≤ m.timestamp) .coverageEnded
  revertIf ((s.commits c).committer ≠ 0 ∧ ¬ expired m.timestamp (s.commits c)) .commitExists
  match scanSlots m s c none (List.finRange maxOpenCommits) with
  | none => .error .tooManyOpenCommits
  | some slot =>
    let prev := s.commitSlots m.sender slot
    let commits := if prev ≠ 0 ∧ prev ≠ c then update s.commits prev noCommit else s.commits
    let seq ← add 48 s.commitSeq 1
    .ok { s with
      commitSlots := update s.commitSlots m.sender (update (s.commitSlots m.sender) slot c)
      commitSeq := seq
      commits := update commits c
        { committer := m.sender, madeAt := m.timestamp % 2 ^ 48, seq := seq } }

/-! ## Reveal -/

/-- The consumed commit's sequence number, and the state without the commit. -/
def consumeCommit (payTo : Address) (evidenceType : Nat) (evidenceHash salt : Word) (s : State) :
    Except Revert (Nat × State) := do
  revertIf (s.activatedAt = 0 ∨ s.closed) .notActive
  let c := commitHash C m.sender payTo evidenceType evidenceHash salt
  let cm := s.commits c
  revertIf (cm.committer = 0 ∨ cm.committer ≠ m.sender) .noCommit
  revertIf (m.timestamp < cm.madeAt + minDelay) .commitTooYoung
  revertIf (cm.madeAt + minDelay + revealWindow < m.timestamp) .commitExpired
  revertIf (payTo = 0) .zeroPayTo
  .ok (cm.seq, { s with commits := update s.commits c noCommit })

def checkHead (h : TreeHead) (sig : Sig) (s : State) : Except Revert Unit := do
  revertIf (h.kid ≠ C.kid) .unknownKid
  revertIf (¬ p256 C (treeHeadDigest C h) sig.r sig.s C.pubX C.pubY) .badSignature
  revertIf (s.quarantined (headRefKey C h.epoch h.treeSize h.root)) .excluded

/-- The incident part of `_record`: open the epoch's incident, or join it while its
    claim window is open. -/
def openOrJoin (epoch : UInt32) (s : State) : Except Revert (Nat × State) :=
  let ik := incidentKey C epoch
  let incidentId := s.incidentOf ik
  if incidentId = 0 then do
    revertIf (s.openIncidents ≠ 0) .anotherIncidentOpen
    let incidentId := s.incidentCount + 1
    let closeAt := (m.timestamp + claimWindow) % 2 ^ 64
    let room ← sub freezeCap s.frozenUsed
    let d := if room < claimWindow then room else claimWindow
    let «until» := if d ≠ 0 then (m.timestamp + d) % 2 ^ 64 else 0
    let frozenUsed ← if d ≠ 0 then add 32 s.frozenUsed (d % 2 ^ 32) else .ok s.frozenUsed
    .ok (incidentId, { s with
      incidentCount := incidentId
      incidentOf := update s.incidentOf ik incidentId
      openIncidents := 1
      freezeUntil := if d ≠ 0 then «until» else s.freezeUntil
      frozenUsed := frozenUsed
      incidents := update s.incidents incidentId {
        epoch := epoch
        openedAt := m.timestamp % 2 ^ 64
        claimsCloseAt := closeAt
        freezeUntil := «until»
        settled := false
        requested := 0
        pool := 0 } })
  else do
    let cur := s.incidents incidentId
    revertIf (cur.settled ∨ cur.claimsCloseAt < m.timestamp) .incidentClosed
    .ok (incidentId, s)

/-- The bounty part of `_record`. -/
def noteBounty (epoch : UInt32) (seq : Nat) (payTo : Address) (s : State) : State :=
  let b := s.bounties epoch
  if b.finalized then s
  else if b.firstRevealAt = 0 then
    { s with
      bounties := update s.bounties epoch
        { b with firstRevealAt := m.timestamp % 2 ^ 64, bestSeq := seq, bestPayTo := payTo }
      pendingBounties := s.pendingBounties + 1 }
  else if m.timestamp < b.firstRevealAt + contestWindow ∧ seq < b.bestSeq then
    { s with bounties := update s.bounties epoch { b with bestSeq := seq, bestPayTo := payTo } }
  else s

def record (key : Word) (evidenceType : Nat) (epoch : UInt32) (seq : Nat) (payTo : Address)
    (lo hi : Word) (s : State) : Except Revert State := do
  revertIf (s.evidenceIncident key ≠ 0) .duplicateEvidence
  let (incidentId, s) ← openOrJoin C m epoch s
  let s := { s with
    evidenceIncident := update s.evidenceIncident key incidentId
    bKeys := if evidenceType = evidenceB then
        update s.bKeys key { lo := lo, hi := hi, incidentId := incidentId }
      else s.bKeys }
  .ok (noteBounty m epoch seq payTo s)

def revealA (h1 : TreeHead) (s1 : Sig) (h2 : TreeHead) (s2 : Sig) (payTo : Address) (salt : Word)
    (s : State) : Except Revert State := do
  let (seq, s) ← consumeCommit C m payTo evidenceA (evidenceHashA C h1 s1 h2 s2) salt s
  revertIf (h1.epoch ≠ h2.epoch ∨ h1.treeSize ≠ h2.treeSize ∨ h1.root = h2.root) .notEquivocation
  checkHead C h1 s1 s
  checkHead C h2 s2 s
  let (lo, hi) := order h1.root h2.root
  record C m (keyA C h1.epoch h1.treeSize lo hi) evidenceA h1.epoch seq payTo lo hi s

def revealB (ev : EvidenceB) (payTo : Address) (salt : Word) (s : State) :
    Except Revert State := do
  let (seq, s) ← consumeCommit C m payTo evidenceB (evidenceHashB C ev) salt s
  revertIf (ev.h1.epoch ≠ ev.h2.epoch ∨ ev.l1 = ev.l2) .notEquivocation
  revertIf (ev.h1.treeSize ≤ ev.index ∨ ev.h2.treeSize ≤ ev.index) .badProof
  checkHead C ev.h1 ev.s1 s
  checkHead C ev.h2 ev.s2 s
  revertIf (¬ EscrowMerkle.verifyInclusion C.hashes.sha256 ev.l1 ev.index ev.h1.treeSize
    ev.h1.root ev.p1) .badProof
  revertIf (¬ EscrowMerkle.verifyInclusion C.hashes.sha256 ev.l2 ev.index ev.h2.treeSize
    ev.h2.root ev.p2) .badProof
  let (lo, hi) := order ev.l1 ev.l2
  record C m (keyB C ev.h1.epoch ev.index lo hi) evidenceB ev.h1.epoch seq payTo lo hi s

/-! ## Bounties and refunds -/

def finalizeBounty (epoch : UInt32) (s : State) : Except Revert State := do
  let b := s.bounties epoch
  revertIf (b.firstRevealAt = 0 ∨ b.finalized) .noPendingBounty
  revertIf (m.timestamp < b.firstRevealAt + contestWindow) .contestOpen
  let pending ← sub s.pendingBounties 1
  if s.bountiesPaid + bounty ≤ bountyCap ∧ s.openRequested + bounty ≤ s.bondAccounted then do
    let bond ← sub s.bondAccounted bounty
    .ok { s with
      pendingBounties := pending
      bountiesPaid := s.bountiesPaid + bounty
      bondAccounted := bond
      credits := update s.credits b.bestPayTo (s.credits b.bestPayTo + bounty)
      bounties := update s.bounties epoch { b with finalized := true, paid := bounty } }
  else
    .ok { s with
      pendingBounties := pending
      bounties := update s.bounties epoch { b with finalized := true, paid := 0 } }

def registerRefund (key : Word) (b : ReceiptBinding) (sig : Sig) (payer : Address)
    (payerSalt : Word) (s : State) : Except Revert State := do
  let bk := s.bKeys key
  revertIf (bk.incidentId = 0 ∨ (b.leafHash ≠ bk.lo ∧ b.leafHash ≠ bk.hi)) .notAffected
  revertIf s.closed .notActive
  let inc := s.incidents bk.incidentId
  revertIf (inc.settled ∨ inc.claimsCloseAt < m.timestamp) .claimsClosed
  revertIf (b.kid ≠ C.kid) .unknownKid
  revertIf (¬ p256 C (bindingDigest C b) sig.r sig.s C.pubX C.pubY) .badSignature
  revertIf (payer = 0 ∨ C.hashes.keccak256 (abiEncode [payerTag C.hashes, addressWord payer,
    payerSalt]) ≠ b.payerCommitment) .badCommitment
  revertIf (b.assetId ≠ usdcBaseId C.hashes) .wrongAsset
  revertIf ((s.refunds b.leafHash).incidentId ≠ 0) .alreadyClaimed
  let amount := if b.amountAtomic.toNat < refundCap then b.amountAtomic.toNat else refundCap
  .ok { s with
    refunds := update s.refunds b.leafHash
      { payer := payer, amount := amount, paid := false, incidentId := bk.incidentId }
    incidents := update s.incidents bk.incidentId { inc with requested := inc.requested + amount }
    openRequested := s.openRequested + amount }

def settle (incidentId : Nat) (s : State) : Except Revert State := do
  revertIf (incidentId = 0 ∨ s.incidentCount < incidentId) .nothingToSettle
  let inc := s.incidents incidentId
  revertIf inc.settled .nothingToSettle
  revertIf (m.timestamp ≤ inc.claimsCloseAt) .claimsOpen
  -- `_settle`
  let pool := if inc.requested < s.bondAccounted then inc.requested else s.bondAccounted
  let bond ← sub s.bondAccounted pool
  let openIncidents ← sub s.openIncidents 1
  let openRequested ← sub s.openRequested inc.requested
  .ok { s with
    incidents := update s.incidents incidentId { inc with pool := pool, settled := true }
    bondAccounted := bond
    openIncidents := openIncidents
    openRequested := openRequested }

def claimRefund (leafHash : Word) (w : World) : Except Revert World := do
  let r := w.escrow.refunds leafHash
  revertIf (r.incidentId = 0 ∨ r.paid) .nothingToClaim
  let inc := w.escrow.incidents r.incidentId
  revertIf (¬ inc.settled) .notSettled
  let pay := if inc.requested = 0 then 0 else r.amount * inc.pool / inc.requested
  let token ← payOut C.self r.payer pay w.token
  .ok { w with
    token := token
    escrow := { w.escrow with refunds := update w.escrow.refunds leafHash { r with paid := true } } }

def claim (w : World) : Except Revert World := do
  let amount := w.escrow.credits m.sender
  revertIf (amount = 0) .nothingToClaim
  let token ← safeTransfer C.self m.sender amount w.token
  .ok { w with
    token := token
    escrow := { w.escrow with credits := update w.escrow.credits m.sender 0 } }

end EscrowContract
