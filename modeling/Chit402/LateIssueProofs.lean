import Chit402.LateStoreProofs

/-! # Late issue

    `resolveLateRecord` takes one late row from `submitted` to `issued`: it
    reads the chain, wins the row with a compare-and-set from `confirmed` to
    `issuing`, reserves the transaction, signs, persists the signature and
    publishes it.  A run that finds the row in `issuing` waits for a live
    lease of another owner, and takes the row back otherwise. -/

namespace LateIssue

open Interleaving LateStore

/-- What the runs use of other modules and of the language: the index key of a transaction, the address and network
    rules, SHA-256 in hex, and the number parser. -/
structure Rules where
  normalizePaymentRef : String → String → Option String
  samePayee : String → String → Bool
  canonicalNetwork : String → String
  sha256 : String → String
  /-- `BigInt(text)`, when that does not throw. -/
  bigInt : String → Option ℤ

/-- `BigInt(String(amount))` -/
def Rules.read (rules : Rules) (amount : Option Amount) : Option ℤ := amount.bind fun amount => rules.bigInt amount.1

/-- What one run is called with. `horizonMs` has its default already. -/
structure Deps where
  pid : String
  owner : Option String
  /-- `typeof deps.signer === 'function'` -/
  canSign : Bool
  enabled : Bool
  shadow : Bool
  horizonMs : ℤ

/-- `a || b || null` over strings -/
def firstOf (texts : List (Option String)) : Option String := (texts.filterMap id).find? (· ≠ "")

/-! ## The decision -/

inductive Verdict
  | issue
  | confirmed
  | unknown
  | mismatch_hold
  | expired_unresolved
  | not_settled
deriving DecidableEq

/-- `LATE_SKEW_MS` -/
def LATE_SKEW_MS : ℤ := 120000

/-- One decision for "too late". On-chain times are seconds, `now` is milliseconds. -/
def decideLateExpiry (record : LateRow) (chain : Chain) (now : ℤ) (nonceUnused : Bool) (horizonMs : ℤ) : Verdict :=
  match record.submitted_at with
  | none => .unknown
  | some submitted =>
    let pastHorizon : Bool := submitted + horizonMs < now
    if ¬ (chain.ok ∧ chain.finalized) then
      if pastHorizon then .expired_unresolved
      else if record.auth.validBefore.any (fun validBefore => 0 < validBefore ∧ validBefore ≤ now / 1000) then
        if nonceUnused then .not_settled else .unknown
      else .unknown
    else if pastHorizon then .expired_unresolved
    else match chain.blockTimestamp with
      | none => .unknown
      | some ts =>
        if ts < (submitted - LATE_SKEW_MS) / 1000 then .mismatch_hold
        else match record.auth.validBefore with
          | none => .unknown
          | some validBefore =>
            if ¬ (record.auth.validAfter.getD 0 < ts ∧ ts < validBefore) then .mismatch_hold
            else if record.challenge_issued_at.any (fun issued => ts < issued / 1000) then .mismatch_hold
            else .issue

variable (rules : Rules)

def sameNetwork (a b : String) : Bool :=
  a ≠ "" ∧ b ≠ "" ∧ rules.canonicalNetwork a = rules.canonicalNetwork b

/-- The comparison of two asset names: addresses without case, anything else as it is. -/
def sameAsset (want got : String) : Bool :=
  if want.startsWith "0x" ∨ got.startsWith "0x" then
    want.startsWith "0x" ∧ got.startsWith "0x" ∧ want.length = 42 ∧ got.length = 42 ∧ want.toLower = got.toLower
  else want = got

/-- Whether a chain read is the settlement of the row. -/
def rebind (record : LateRow) (chain : Chain) : Verdict :=
  if ¬ chain.ok then (if chain.pending then .unknown else .mismatch_hold)
  else if ¬ chain.finalized then .unknown
  else if (firstOf [chain.network]).any (fun network => ¬ sameNetwork rules network record.network) then .mismatch_hold
  else if rules.canonicalNetwork ((firstOf [chain.network]).getD record.network) = "base-sepolia" then .mismatch_hold
  else match firstOf [chain.asset], firstOf [record.asset] with
    | some got, some want =>
      if ¬ sameAsset want got then .mismatch_hold
      else match firstOf [chain.payTo], firstOf [record.payee] with
        | some payTo, some payee =>
          if ¬ rules.samePayee payTo payee then .mismatch_hold
          else match chain.transferCount with
            | none => .unknown
            | some transferCount =>
              if transferCount ≠ 1 then .mismatch_hold
              else match rules.read chain.amount, rules.read record.route_quote, rules.read record.auth.value with
                | some amount, some quote, some authValue =>
                  if amount ≠ authValue ∨ amount < quote then .mismatch_hold
                  else match firstOf [record.auth.from], firstOf [chain.payer], firstOf [chain.authorizer] with
                    | some payer, some chainPayer, some authorizer =>
                      if ¬ rules.samePayee chainPayer payer then .mismatch_hold
                      else if ¬ rules.samePayee authorizer payer then .mismatch_hold
                      else .confirmed
                    | _, _, _ => .unknown
                | _, _, _ => .unknown
        | _, _ => .unknown
    | _, _ => .unknown

/-- What the run does with a row it has read the chain for. -/
def decideNext (deps : Deps) (row : LateRow) (chain : Chain) (now : ℤ) : Verdict :=
  let bound := rebind rules row chain
  let expiry := decideLateExpiry row
    (if bound = .unknown then { chain with ok := false, finalized := false } else chain)
    now chain.nonceUnused deps.horizonMs
  if bound = .mismatch_hold then .mismatch_hold
  else if bound = .unknown ∧ expiry = .issue then .unknown
  else if bound = .confirmed ∧ expiry = .issue then .confirmed
  else expiry

def Verdict.closes : Verdict → Option LateState
  | .mismatch_hold => some .mismatch_hold
  | .expired_unresolved => some .expired_unresolved
  | .not_settled => some .not_settled
  | _ => none

def Verdict.name : Verdict → String
  | .issue => "issue"
  | .confirmed => "confirmed"
  | .unknown => "unknown"
  | .mismatch_hold => "mismatch_hold"
  | .expired_unresolved => "expired_unresolved"
  | .not_settled => "not_settled"

/-! ## Publishing -/

structure LateAnswer where
  jws : Option Jws := none
  state : Option LateState := none
  pending : Bool := false
  signerFailed : Bool := false
  ownerOnly : Bool := false
  duplicate : Bool := false
  served : Bool := false

def ledgerRef (record : LateRow) (chain : Chain) : Option String :=
  match record.tx_ref with
  | some stored => if ':' ∈ stored.toList then some stored
    else (firstOf [some stored, chain.tx, chain.transaction, record.tx_hint]).bind
      (rules.normalizePaymentRef record.network)
  | none => (firstOf [chain.tx, chain.transaction, record.tx_hint]).bind (rules.normalizePaymentRef record.network)

def receiptIdOf (id : String) (record : LateRow) : String :=
  if record.receipt_id = "" then "late-" ++ id else record.receipt_id

def publicLateReceipt (id : String) (record : LateRow) (chain : Chain) (jws : Jws) : LateReceipt where
  task_id := receiptIdOf id record
  receipt_id := receiptIdOf id record
  status := "paid"
  rail := "usdc"
  ref := ledgerRef rules record chain
  asset := "USDC"
  payee := (firstOf [chain.payTo]).or record.payee
  gross_amount := record.route_quote
  settled_amount := chain.amount.or record.expected_settled_amount
  network := record.network
  jws := jws
  note := "payment confirmed late; not served."

/-- `await` of an operation -/
abbrev call (o : Op) : Prog (Res o) := Prog.call o

/-- Reading a property of a row that is not there throws. -/
def present : Option LateRow → Prog LateRow
  | some row => pure row
  | none => .thrown

/-- A block whose exception is swallowed. -/
def attempt (p : Prog Unit) : Prog Bool := (do p; pure true : Prog Bool).orElse (pure false)

def appendLeaf (record : LateRow) (digest : String) : Prog Bool :=
  if record.log_appended then pure true else call (.appendLog record digest)

/-- `if (text) …` -/
def whenText (text : Option String) (f : String → Prog Unit) : Prog Unit :=
  match firstOf [text] with
  | some text => f text
  | none => pure ()

/-- The spent marks of a published row. -/
def markIssued (fresh : LateRow) (chain : Chain) (txRef : Option String) : Prog Unit := do
  let payTo := (firstOf [chain.payTo]).or fresh.payee
  whenText (some fresh.nonce) fun nonce =>
    call (.markSpent nonce ⟨txRef.or fresh.tx_ref, chain.amount, chain.payer, payTo, true⟩)
  whenText fresh.auth_key fun auth_key => call (.markAuthSpent auth_key ((txRef.or fresh.tx_ref).getD ""))
  whenText txRef fun key => call (.markTxSpent key (some ⟨chain.amount, chain.payer, payTo⟩))

/-- The rest of a publication once the ledger has the receipt: the log, the last compare-and-set, the marks. -/
def publishLogged (id : String) (fresh : LateRow) (jws : Jws) (chain : Chain) : Prog LateAnswer := do
  let txRef := ledgerRef rules fresh chain
  whenText txRef fun ref =>
    call (.appendLateLedger ⟨fresh.auth_key, ref, id, fresh.receipt_id, chain.amount, chain.payer⟩)
  let logged ← appendLeaf fresh (rules.sha256 jws)
  if ¬ logged then pure { pending := true }
  else do
    let _ ← call (.casLate id [.issuing, .confirmed] .issued { log_appended := some true, served := some fresh.served })
    markIssued fresh chain txRef
    pure { jws := some jws, served := fresh.served }

/-- `publishIssued` for a row that has its signature. -/
def publishSigned (id : String) (fresh : LateRow) (jws : Jws) (chain : Chain) : Prog LateAnswer := do
  let receipt := publicLateReceipt rules id fresh chain jws
  let _ ← call (.casLate id [.issuing, .confirmed, .issued] fresh.state
    { public_receipt := some receipt, receipt_id := some receipt.receipt_id })
  if fresh.ledger_recorded then publishLogged rules id fresh jws chain
  else if ← (attempt do
      call (.recordLedger receipt)
      let _ ← call (.casLate id [.issuing, .confirmed, .issued] fresh.state { ledger_recorded := some true })) then
    publishLogged rules id fresh jws chain
  else pure { pending := true }

/-- The signer call of `publishIssued`, whose exceptions are caught. -/
def sign (deps : Deps) (current : LateRow) (chain : Chain) (issuedAt : ℤ) : Prog (Option Jws) :=
  (do if deps.canSign then
        match ← call (.signer current chain issuedAt) with
        | some jws => pure (some jws)
        | none => .thrown
      else .thrown : Prog (Option Jws)).orElse (pure none)

/-- `fuel` bounds how often a row is published again after it was signed. -/
def publishIssued (deps : Deps) (id : String) (chain : Chain) : ℕ → LateRow → Prog LateAnswer
  | 0, _ => .thrown
  | fuel + 1, record => do
    let fresh := (← call (.getLate id)).getD record
    match fresh.jws with
    | some jws =>
      if fresh.log_appended ∧ fresh.state = .issued ∧ fresh.ledger_recorded then
        pure { jws := some jws, served := fresh.served }
      else publishSigned rules id fresh jws chain
    | none => do
      let now ← call .now
      let receiptId := receiptIdOf id fresh
      let _ ← call (.casLate id [.issuing] .issuing { receipt_id := some receiptId })
      let current ← present (← call (.getLate id))
      match ← sign deps current chain (now / 60000) with
      | none => do
        let _ ← call (.casLate id [.issuing] .confirmed
          { lease_owner := some none, lease_until := some 0, jws := some none })
        pure { pending := true, signerFailed := true }
      | some jws => do
        let persisted ← call (.casLate id [.issuing] .issuing {
          jws := some (some jws), receipt_id := some receiptId
          request_digest := (firstOf [current.request_digest]).or (some (rules.sha256 "")), served := some false })
        match persisted.bind LateRow.jws with
        | none => pure { pending := true }
        | some _ => do
          let row ← present (← call (.getLate id))
          publishIssued deps id chain fuel row

def waitForJws (id : String) : ℕ → Prog (Option Jws)
  | 0 => pure none
  | tries + 1 => do
    match (← call (.getLate id)).bind LateRow.jws with
    | some jws => pure (some jws)
    | none => waitForJws id tries

/-- What a run that does not issue answers after waiting. -/
def waited (id : String) (state : Option LateState) : Prog LateAnswer := do
  match ← waitForJws id 40 with
  | some jws => pure { jws := some jws }
  | none => pure { pending := true, state := state }

/-! ## Resolving a row -/

def ownerOf (deps : Deps) : String := (firstOf [deps.owner]).getD ("p" ++ deps.pid)

/-- The transaction a confirmed read names. -/
def txOf (row : LateRow) (chain : Chain) : Option String := firstOf [chain.tx, chain.transaction, row.tx_hint]

def reserveCaught (ref authKey reserveOwner : String) : Prog (Option Bool) :=
  (do return some (← call (.reserveTx ref authKey reserveOwner 180000)) : Prog (Option Bool)).orElse (pure none)

/-- The release in a `finally` block: only of a transaction that is not spent, and the lease expires otherwise. -/
def releaseUnspent (ref authKey reserveOwner : String) : Prog Unit := do
  let _ ← attempt do
    if ¬ (← call (.isTxSpent ref)) then call (.releaseTx ref authKey reserveOwner)
  pure ()

/-- The publication of a row that was won, and the release of its reservation. -/
def publishWon (deps : Deps) (fuel : ℕ) (id : String) (row : LateRow) (chain : Chain)
    (held : Option (String × String)) :
    Prog LateAnswer :=
  let publish : Prog LateAnswer := do
    let record ← present (← call (.getLate id))
    publishIssued rules { deps with canSign := true } id { chain with tx := txOf row chain } fuel record
  match held with
  | none => publish
  | some (txRef, reserveOwner) => publish.andFinally (releaseUnspent txRef (row.auth_key.getD "") reserveOwner)

/-- A row that was won: the reservation of its transaction, then the publication. -/
def issueWon (deps : Deps) (fuel : ℕ) (id : String) (row : LateRow) (chain : Chain) : Prog LateAnswer := do
  let tx := txOf row chain
  let txRef := tx.bind (rules.normalizePaymentRef row.network)
  let _ ← call (.casLate id [.issuing] .issuing { tx_ref := some txRef, tx_hint := some (tx.or row.tx_hint) })
  let reserveOwner := "late:" ++ deps.pid ++ ":" ++ id
  match txRef with
  | none => publishWon rules deps fuel id row chain none
  | some ref => do
    match ← reserveCaught ref (row.auth_key.getD "") reserveOwner with
    | none => do
      let _ ← call (.casLate id [.issuing] .confirmed
        { lease_owner := some none, lease_until := some 0, why := some "reserve_unavailable" })
      pure { pending := true, state := some .confirmed }
    | some false => do
      if ← call (.isTxSpent ref) then do
        let _ ← call (.casLate id [.issuing] .issued { why := some "tx_already_receipted", tx_ref := some (some ref) })
        pure { state := some .issued, duplicate := true }
      else do
        let _ ← call (.casLate id [.issuing] .confirmed
          { lease_owner := some none, lease_until := some 0, why := some "tx_reserved" })
        pure { pending := true, state := some .confirmed }
    | some true => publishWon rules deps fuel id row chain (some (ref, reserveOwner))

/-- A confirmed row: the reorg guard, and the compare-and-set that wins it. -/
def issueConfirmed (deps : Deps) (fuel : ℕ) (id : String) (row : LateRow) (chain : Chain) (now : ℤ) :
    Prog LateAnswer := do
  if ¬ deps.enabled ∨ deps.shadow then pure { pending := true, state := some .confirmed }
  else if ¬ (← call (.reorgGuard row chain)) then do
    let _ ← call (.casLate id [.confirmed] .unknown { why := some "reorg" })
    pure { pending := true, state := some .unknown }
  else do
    let won ← call (.casLate id [.confirmed] .issuing {
      lease_owner := some (some (ownerOf deps)), lease_seq := some (row.lease_seq + 1)
      lease_until := some (now + 60000), served := some false })
    match won with
    | none => waited id none
    | some _ => issueWon rules deps fuel id row chain

/-- The hint and the scan mark a chain read leaves on the row. -/
def scanPatch (row : LateRow) (chain : Chain) : Option LatePatch :=
  let hint := if (firstOf [row.tx_hint]).isNone then firstOf [chain.tx] else none
  let scanned := (firstOf [chain.scannedTo]).filter fun scannedTo => scannedTo ≠ row.scanned_to.getD ""
  if hint.isNone ∧ scanned.isNone then none else some { tx_hint := hint.map some, scanned_to := scanned }

theorem scanPatch_marks {row : LateRow} {chain : Chain} {patch : LatePatch} (h : scanPatch row chain = some patch) :
    ∃ tx_hint scanned_to, patch = { tx_hint := tx_hint, scanned_to := scanned_to } := by
  unfold scanPatch at h
  dsimp only at h
  generalize (if (firstOf [row.tx_hint]).isNone = true then firstOf [chain.tx] else none) = hint at h
  split at h
  · cases h
  · exact ⟨_, _, (Option.some.inj h).symm⟩

/-- What follows the chain read of an open row. -/
def resolveDecided (deps : Deps) (fuel : ℕ) (id : String) (row : LateRow) (chain : Chain) (now : ℤ) :
    Prog LateAnswer := do
  let next := decideNext rules deps row chain now
  match next.closes with
  | some closed => do
    let _ ← call (.casLate id [.unknown, .confirmed, .submitted] closed { why := some next.name })
    pure { state := some closed, ownerOnly := true }
  | none =>
    if next ≠ .confirmed then pure { pending := true, state := some .unknown }
    else if row.state = .confirmed then issueConfirmed rules deps fuel id row chain now
    else do
      let _ ← call (.casLate id [.unknown] .confirmed
        { why := some "confirmed", confirmed_at := some now, tx_hint := some (txOf row chain) })
      let row ← present (← call (.getLate id))
      issueConfirmed rules deps fuel id row chain now

/-- A row in `unknown` or `confirmed`. -/
def resolveOpen (deps : Deps) (fuel : ℕ) (id : String) (row : LateRow) (now : ℤ) : Prog LateAnswer := do
  if row.state ≠ .unknown ∧ row.state ≠ .confirmed then pure { pending := true, state := some row.state }
  else do
    let chain ← call (.readChain row)
    match scanPatch row chain with
    | none => resolveDecided rules deps fuel id row chain now
    | some patch => do
      let _ ← call (.casLate id [row.state] row.state patch)
      let row ← present (← call (.getLate id))
      resolveDecided rules deps fuel id row chain now

/-- The facts of the row itself, for a row found already signed. -/
def rowChain (row : LateRow) : Chain where
  ok := false
  pending := false
  finalized := false
  network := none
  asset := none
  payTo := row.payee
  payer := row.auth.from
  authorizer := none
  amount := row.expected_settled_amount
  transferCount := none
  blockTimestamp := none
  tx := row.tx_hint
  transaction := none
  scannedTo := none
  nonceUnused := false

/-- A row in `issuing` belongs to whoever holds its lease. Only this entry looks at the lease. -/
def resolveIssuing (deps : Deps) (fuel : ℕ) (id : String) (row : LateRow) (now : ℤ) : Prog LateAnswer := do
  if row.state ≠ .issuing then resolveOpen rules deps fuel id row now
  else match row.jws with
    | some _ => publishIssued rules deps id (rowChain row) fuel row
    | none =>
      if now < row.lease_until ∧ (firstOf [row.lease_owner]).any (· ≠ ownerOf deps) then waited id (some .issuing)
      else do
        let recovered ← call (.casLate id [.issuing] .confirmed
          { lease_owner := some none, lease_until := some 0, jws := some none })
        match recovered with
        | none => pure { pending := true, state := some .issuing }
        | some _ => do
          let row ← present (← call (.getLate id))
          resolveOpen rules deps fuel id row now

def resolveLateRecord (deps : Deps) (fuel : ℕ) (id : String) (record : LateRow) : Prog LateAnswer := do
  let now ← call .now
  let row := (← call (.getLate id)).getD record
  if row.state.terminal then
    if row.jws.isNone ∧ row.state ≠ .issued then pure { state := some row.state, ownerOnly := true }
    else pure { jws := row.jws, state := some row.state, served := row.served }
  else if row.state = .submitted then
    if row.sent ∨ 5000 < now - row.submitted_at.getD 0 then do
      let _ ← call (.casLate id [.submitted] .unknown { why := firstOf [row.why, some "unresolved_submit"] })
      let row ← present (← call (.getLate id))
      resolveIssuing rules deps fuel id row now
    else pure { pending := true, state := some .submitted }
  else resolveIssuing rules deps fuel id row now

end LateIssue
