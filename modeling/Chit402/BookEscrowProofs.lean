import Chit402.OrderedMapProofs
import Chit402.TraceProofs

/-! # The book's escrow helper

    Escrow records beside the book: `handleEscrowAction` opens, releases,
    claws back and shows them.  It runs up to its first `await` in one
    piece, and each continuation after an `await` in another; the functions
    below are those pieces, on the store they share.

    Dates, letter case and the settlement switch are the host's, a receipt
    and an adjudication are whatever the awaited calls answer. -/

namespace BookEscrow

/-! ## Records -/

inductive EscrowStatus where
  | open
  | released
  | clawedBack
  | expired
deriving DecidableEq

def EscrowStatus.text : EscrowStatus → String
  | .open => "open"
  | .released => "released"
  | .clawedBack => "clawed_back"
  | .expired => "expired"

inductive EscrowAction where
  | open
  | release
  | clawback
  | status
deriving DecidableEq

/-- `ESCROW_ACTIONS`, by value. -/
def parseAction (action : String) : Option EscrowAction :=
  if action = "open" then some .open
  else if action = "release" then some .release
  else if action = "clawback" then some .clawback
  else if action = "status" then some .status
  else none

inductive Outcome where
  | refund
  | partial_
  | stand
  | pending
deriving DecidableEq

structure Check where
  checked : Bool
  valid : Option Bool
  reason : Option String
deriving DecidableEq

def unchecked : Check := ⟨false, none, none⟩

structure Checks where
  ledgerHold : Check
  outputHash : Check
  proofTier : Check
  receiptSignature : Option Check
deriving DecidableEq

/-- The release conditions; an absent one is empty. -/
structure Required where
  outputHash : String
  proofTier : String
deriving DecidableEq

structure Hold where
  paymentRef : String
  rail : String
deriving DecidableEq

inductive RefundInstruction where
  | ledgerAdjudication (outcome : Outcome) (amount : Option String)
  | stand
  | pending
deriving DecidableEq

structure Escrow where
  escrowId : String
  agentId : ℤ
  taskId : String
  amount : String
  status : EscrowStatus
  hold : Hold
  required : Required
  expiresAt : String
  openedAt : String
  closedAt : Option String
  closeReason : Option String
  verification : Option Checks
  disputeId : Option String
  refundInstruction : Option RefundInstruction
deriving DecidableEq

/-- A row of the ledger; an absent text is empty, an absent amount `none`. -/
structure LedgerEntry where
  agentId : ℤ
  collected : Bool
  paymentRef : String
  amount : Option String
  rail : String
deriving DecidableEq

/-- What release reads of a receipt. -/
structure Receipt where
  outputHash : String
  proofTier : String
  zkpTier : String
  inferenceTier : String
deriving DecidableEq

/-- What clawback reads of a dispute. -/
structure Dispute where
  disputeId : String
  outcome : Outcome
  outcomeAmount : Option String
deriving DecidableEq

/-- What `fileAndAdjudicate` resolves to. -/
structure DisputeResult where
  ok : Bool
  reason : Option String
  dispute : Option Dispute
deriving DecidableEq

structure BookEscrowStore where
  escrows : OrderedMap String Escrow
  byTask : OrderedMap String String

namespace BookEscrowStore

def get (s : BookEscrowStore) (escrowId : String) : Option Escrow := s.escrows.lookup escrowId

def getByTask (s : BookEscrowStore) (taskId : String) : Option Escrow := (s.byTask.lookup taskId).bind s.get

/-- A changed record, under the id it has. -/
def put (s : BookEscrowStore) (e : Escrow) : BookEscrowStore := { s with escrows := s.escrows.set e.escrowId e }

/-- A new record, and its task's index entry. -/
def insert (s : BookEscrowStore) (e : Escrow) : BookEscrowStore :=
  { escrows := s.escrows.set e.escrowId e, byTask := s.byTask.set e.taskId e.escrowId }

end BookEscrowStore

/-! ## What a piece meets -/

/-- `Date.parse`, which may be `NaN`, its inverse, and `toLowerCase`. -/
structure Host where
  dateParse : String → Option ℤ
  toISOString : ℤ → String
  toLowerCase : String → String

/-- The clock, the disk and the collaborators as one piece finds them. -/
structure Outside where
  now : ℤ
  /-- A save that is attempted succeeds. -/
  saved : Bool
  /-- `crypto.randomBytes(8)` in hex. -/
  randomHex : String
  findByTask : String → Option LedgerEntry
  settlementProofEnabled : Bool
  /-- `loadReceipt` was passed. -/
  loads : Bool
  /-- The check that `verifyReceipt`, if it was passed, makes of a receipt. -/
  signatureCheck : Option (Receipt → Check)
  baseUrl : String

structure EscrowInput where
  action : String
  /-- `Number(agent_id)`, with `NaN` as `none`. -/
  agentId : Option ℤ
  escrowId : String
  taskId : String
  amount : Option String
  expiresAt : String
  required : Required
  claimType : String

structure EscrowView where
  escrow : Escrow
  verifyUrl : Option String

structure Reply where
  ok : Bool
  code : Option String
  reason : Option String
  escrow : Option EscrowView
  existing : Option Escrow
  dispute : Option Dispute
  checks : Option Checks
  disclaimer : Option String

def Reply.refused (reason : String) : Reply := ⟨false, none, some reason, none, none, none, none, none⟩

/-- How a piece ends: with an answer, an exception, or an `await`. -/
inductive Turn where
  | replied (reply : Reply)
  | threw (message : String)
  | loadingReceipt (escrowId : String) (entry : Option LedgerEntry)
  | adjudicating (escrowId claimType : String)

/-- `_save` and then the answer. -/
def save (out : Outside) (reply : Reply) : Turn :=
  if out.saved = true then .replied reply else .threw "book-escrow: save failed"

/-! ## Release conditions -/

def dropHexPrefix (s : String) : String := if s.startsWith "0x" then (s.drop 2).toString else s

def normalizeHash (host : Host) (value : String) : String := dropHexPrefix (host.toLowerCase value)

def proofTiers : List String := ["settlement", "inference"]

def tierRank (tier : String) : ℕ :=
  if tier = "settlement" then 1 else if tier = "inference" then 2 else 0

/-- Whether a tier is met, and why. -/
def tierMeets (host : Host) (required actual : String) : Bool × String :=
  if required = "" then (true, "no tier required")
  else
    let req := host.toLowerCase required
    let act := host.toLowerCase actual
    if req ∉ proofTiers then (false, "unknown required tier: " ++ required)
    else if tierRank req ≤ tierRank act then
      (true, "tier " ++ (if act = "" then "none" else act) ++ " meets " ++ req)
    else (false, "tier " ++ (if act = "" then "none" else act) ++ " below required " ++ req)

def Receipt.tier (r : Receipt) : String :=
  if r.proofTier ≠ "" then r.proofTier else if r.zkpTier ≠ "" then r.zkpTier else r.inferenceTier

structure Verification where
  ok : Bool
  checks : Checks
  reason : Option String
deriving DecidableEq

def checkOutputHash (host : Host) (required : Required) (receipt : Option Receipt) : Check :=
  if required.outputHash = "" then unchecked
  else
    let actual := (receipt.map Receipt.outputHash).getD ""
    if actual = "" then ⟨true, some false, some "receipt output hash missing"⟩
    else if normalizeHash host actual = normalizeHash host required.outputHash then
      ⟨true, some true, some "hash matches"⟩
    else ⟨true, some false, some "hash mismatch"⟩

def checkProofTier (host : Host) (settlementProofEnabled : Bool) (required : Required)
    (receipt : Option Receipt) : Check :=
  if required.proofTier = "" then unchecked
  else if host.toLowerCase required.proofTier = "settlement" ∧ settlementProofEnabled = false then
    ⟨true, some false, some "settlement tier unavailable; escrow held"⟩
  else
    let met := tierMeets host required.proofTier ((receipt.map Receipt.tier).getD "")
    ⟨true, some met.1, some met.2⟩

def Check.failed (c : Check) : Bool := c.valid == some false

/-- The checks in order; the ones after a failed one are not made. -/
def verifyEscrowRelease (host : Host) (settlementProofEnabled : Bool) (escrow : Escrow) (receipt : Option Receipt)
    (entry : Option LedgerEntry) : Verification :=
  match entry.filter LedgerEntry.collected with
  | none =>
    let hold : Check := ⟨true, some false, some "no collected ledger entry"⟩
    ⟨false, ⟨hold, unchecked, unchecked, none⟩, hold.reason⟩
  | some e =>
    let hold : Check := ⟨true, some true, some ("payment_ref " ++ e.paymentRef)⟩
    let hash := checkOutputHash host escrow.required receipt
    if hash.failed = true then ⟨false, ⟨hold, hash, unchecked, none⟩, hash.reason⟩
    else
      let tier := checkProofTier host settlementProofEnabled escrow.required receipt
      if tier.failed = true then ⟨false, ⟨hold, hash, tier, none⟩, tier.reason⟩
      else ⟨true, ⟨hold, hash, tier, none⟩, none⟩

/-! ## Views -/

def packEscrowView (escrow : Escrow) (baseUrl : String) : EscrowView :=
  { escrow
    verifyUrl :=
      if baseUrl = "" then none
      else some ((if baseUrl.endsWith "/" then (baseUrl.dropEnd 1).toString else baseUrl)
        ++ "/receipt/" ++ escrow.taskId) }

def releaseDisclaimer : String :=
  "Release verifies settlement metadata (payment binding, output hash, proof tier). "
    ++ "It does not prove a closed-weight model ran the requested computation."

def clawbackDisclaimer : String :=
  "Clawback runs ledger dispute adjudication against the collected receipt. "
    ++ "v1 ledger escrow does not pull USDC back on-chain automatically."

/-! ## Expiry -/

def PastExpiry (host : Host) (now : ℤ) (e : Escrow) : Prop :=
  e.expiresAt ≠ "" ∧ ∃ t ∈ host.dateParse e.expiresAt, t ≤ now

instance (host : Host) (now : ℤ) (e : Escrow) : Decidable (PastExpiry host now e) :=
  inferInstanceAs (Decidable (_ ∧ _))

def markExpired (host : Host) (now : ℤ) (e : Escrow) : Escrow :=
  { e with status := .expired, closedAt := some (host.toISOString now), closeReason := some "expired" }

/-- `_touchExpiry`: what it makes of an escrow, and whether it has to save. -/
def touchExpiry (host : Host) (now : ℤ) (e : Escrow) : Escrow × Bool :=
  if e.status = .open ∧ PastExpiry host now e then (markExpired host now e, true) else (e, false)

/-! ## The pieces of `handleEscrowAction` -/

/-- `claim_type`, or its default. -/
def claimTypeOf (input : EscrowInput) : String := if input.claimType = "" then "output_missing" else input.claimType

def claimTypes : List String := ["output_missing", "wrong_model", "double_charge"]

def defaultExpiryMs : ℤ := 7 * 24 * 60 * 60 * 1000

/-- The date an escrow expires, if the input names a valid one or none. -/
def expiryOf (host : Host) (now : ℤ) (expiresAt : String) : Option String :=
  if expiresAt = "" then some (host.toISOString (now + defaultExpiryMs))
  else (host.dateParse expiresAt).map fun _ => expiresAt

def newEscrow (host : Host) (out : Outside) (input : EscrowInput) (entry : LedgerEntry) (expiresAt : String) : Escrow :=
  { escrowId := "escrow-" ++ out.randomHex
    agentId := entry.agentId
    taskId := input.taskId
    amount := input.amount.getD (entry.amount.getD "0")
    status := .open
    hold := ⟨entry.paymentRef, if entry.rail = "" then "usdc" else entry.rail⟩
    required := ⟨input.required.outputHash, host.toLowerCase input.required.proofTier⟩
    expiresAt
    openedAt := host.toISOString out.now
    closedAt := none
    closeReason := none
    verification := none
    disputeId := none
    refundInstruction := none }

/-- What stands in the way of opening, or the record to add. -/
def checkOpen (host : Host) (out : Outside) (input : EscrowInput) (s : BookEscrowStore) : Except Reply Escrow :=
  if input.taskId = "" then .error (.refused "task_id required for open")
  else if input.required.outputHash = "" ∧ input.required.proofTier = "" then
    .error (.refused "required.output_hash and/or required.proof_tier required")
  else if input.required.proofTier ≠ "" ∧ host.toLowerCase input.required.proofTier ∉ proofTiers then
    .error (.refused ("invalid proof_tier: " ++ input.required.proofTier))
  else if host.toLowerCase input.required.proofTier = "settlement" ∧ out.settlementProofEnabled = false then
    .error { Reply.refused ("required.proof_tier 'settlement' is not offered. "
        ++ "Tier-2 settlement proofs are temporarily unavailable. Retry without proof_tier.") with
      code := some "settlement_proof_not_offered" }
  else if ((s.getByTask input.taskId).filter fun e => e.status = .open).isSome = true then
    .error { Reply.refused "escrow already open for this task" with existing := s.getByTask input.taskId }
  else
    match out.findByTask input.taskId with
    | none => .error (.refused "task not on book — pay via x402 first")
    | some entry =>
      if input.agentId ≠ some entry.agentId then .error (.refused "task not owned by this agent")
      else if entry.collected = false then .error (.refused "ledger entry not collected")
      else if input.amount.isSome = true ∧ input.amount ≠ some (entry.amount.getD "") then
        .error (.refused "amount does not match ledger entry")
      else
        match expiryOf host out.now input.expiresAt with
        | none => .error (.refused "invalid expires_at")
        | some expiresAt => .ok (newEscrow host out input entry expiresAt)

def openEscrow (host : Host) (out : Outside) (input : EscrowInput) (s : BookEscrowStore) : BookEscrowStore × Turn :=
  match checkOpen host out input s with
  | .error reply => (s, .replied reply)
  | .ok e =>
    (s.insert e, save out ⟨true, none, none, some (packEscrowView e out.baseUrl), none, none, none, none⟩)

def notOpen (out : Outside) (e : Escrow) : Reply :=
  { Reply.refused ("escrow not open (status: " ++ e.status.text ++ ")") with
    escrow := some (packEscrowView e out.baseUrl) }

/-- The escrow an action is about, if it is the caller's. -/
def find (input : EscrowInput) (s : BookEscrowStore) : Except String Escrow :=
  let found :=
    if input.escrowId ≠ "" then some input.escrowId
    else if input.taskId ≠ "" then s.byTask.lookup input.taskId
    else none
  match found with
  | none => .error "escrow_id or task_id required"
  | some escrowId =>
    match (s.get escrowId).filter fun e => input.agentId = some e.agentId with
    | none => .error "escrow not found"
    | some e => .ok e

def showEscrow (host : Host) (out : Outside) (input : EscrowInput) (s : BookEscrowStore) : BookEscrowStore × Turn :=
  if input.escrowId = "" ∧ input.taskId = "" then
    (s, .replied (.refused "escrow_id or task_id required for status"))
  else
    let found := if input.escrowId ≠ "" then s.get input.escrowId else s.getByTask input.taskId
    match found.filter fun e => input.agentId = some e.agentId with
    | none => (s, .replied (.refused "escrow not found"))
    | some e =>
      let touched := touchExpiry host out.now e
      let reply : Reply := ⟨true, none, none, some (packEscrowView touched.1 out.baseUrl), none, none, none, none⟩
      if touched.2 = true then (s.put touched.1, save out reply) else (s, .replied reply)

def markReleased (host : Host) (now : ℤ) (checks : Checks) (e : Escrow) : Escrow :=
  { e with
    status := .released
    closedAt := some (host.toISOString now)
    closeReason := some "principal_release"
    verification := some checks }

/-- Release once the receipt is there: `null` when it could not be loaded. -/
def release (host : Host) (out : Outside) (e : Escrow) (entry : Option LedgerEntry) (receipt : Option Receipt)
    (s : BookEscrowStore) : BookEscrowStore × Turn :=
  let verification := verifyEscrowRelease host out.settlementProofEnabled e receipt entry
  if verification.ok = false then
    (s, .replied ⟨false, none, verification.reason, some (packEscrowView e out.baseUrl), none, none,
      some verification.checks, some releaseDisclaimer⟩)
  else
    let checks := { verification.checks with
      receiptSignature := receipt.bind fun r => out.signatureCheck.map fun check => check r }
    let closed := markReleased host out.now checks e
    (s.put closed, save out ⟨true, none, none, some (packEscrowView closed out.baseUrl), none, none, some checks,
      some releaseDisclaimer⟩)

/-- The instruction an adjudication leads to. -/
def instructionOf (answer : DisputeResult) : Option RefundInstruction :=
  match (if answer.ok = true then answer.dispute else none) with
  | none => none
  | some d =>
    match d.outcome with
    | .refund => some (.ledgerAdjudication .refund d.outcomeAmount)
    | .partial_ => some (.ledgerAdjudication .partial_ d.outcomeAmount)
    | .stand => some .stand
    | .pending => some .pending

def markClawedBack (host : Host) (now : ℤ) (claimType : String) (answer : DisputeResult) (e : Escrow) : Escrow :=
  { e with
    status := .clawedBack
    closedAt := some (host.toISOString now)
    closeReason := some ("clawback:" ++ claimType)
    disputeId :=
      match (if answer.ok = true then answer.dispute else none) with
      | none => e.disputeId
      | some d => some d.disputeId
    refundInstruction := instructionOf answer }

/-- Clawback once the adjudication has answered. -/
def clawBack (host : Host) (out : Outside) (e : Escrow) (claimType : String) (answer : DisputeResult)
    (s : BookEscrowStore) : BookEscrowStore × Turn :=
  let closed := markClawedBack host out.now claimType answer e
  (s.put closed, save out ⟨true, none, none, some (packEscrowView closed out.baseUrl), none, answer.dispute, none,
    some clawbackDisclaimer⟩)

/-- Release and clawback up to their `await`. -/
def startClose (host : Host) (out : Outside) (input : EscrowInput) (releasing : Bool) (s : BookEscrowStore) :
    BookEscrowStore × Turn :=
  match find input s with
  | .error reason => (s, .replied (.refused reason))
  | .ok e =>
    let touched := touchExpiry host out.now e
    if touched.2 = true then (s.put touched.1, save out (notOpen out touched.1))
    else if e.status ≠ .open then (s, .replied (notOpen out e))
    else if releasing = true then
      let entry := out.findByTask e.taskId
      if out.loads = true then (s, .loadingReceipt e.escrowId entry) else release host out e entry none s
    else if claimTypeOf input ∉ claimTypes then
      (s, .replied (.refused ("invalid claim_type: " ++ claimTypeOf input)))
    else (s, .adjudicating e.escrowId (claimTypeOf input))

/-- What an accepted action runs, up to its first `await`. -/
def runEscrowAction (host : Host) (out : Outside) (action : EscrowAction) (input : EscrowInput)
    (s : BookEscrowStore) : BookEscrowStore × Turn :=
  match action with
  | .status => showEscrow host out input s
  | .open => openEscrow host out input s
  | .release => startClose host out input true s
  | .clawback => startClose host out input false s

/-- A call, up to its first `await`. -/
def handleEscrowAction (host : Host) (out : Outside) (input : EscrowInput) (s : BookEscrowStore) :
    BookEscrowStore × Turn :=
  match parseAction (host.toLowerCase input.action) with
  | none => (s, .replied (.refused ("invalid action: " ++ input.action)))
  | some action => runEscrowAction host out action input s

/-- The piece after `await loadReceipt`. -/
def afterReceipt (host : Host) (out : Outside) (escrowId : String) (entry : Option LedgerEntry)
    (receipt : Option Receipt) (s : BookEscrowStore) : BookEscrowStore × Turn :=
  match s.get escrowId with
  | none => (s, .threw "unreachable: records are never removed")
  | some e => release host out e entry receipt s

/-- The piece after `await fileAndAdjudicate`, which may have thrown. -/
def afterDispute (host : Host) (out : Outside) (escrowId claimType : String) (answer : Except String DisputeResult)
    (s : BookEscrowStore) : BookEscrowStore × Turn :=
  match answer with
  | .error message => (s, .threw message)
  | .ok result =>
    match s.get escrowId with
    | none => (s, .threw "unreachable: records are never removed")
    | some e => clawBack host out e claimType result s

end BookEscrow
