import Chit402.AnchorLeafProofs

/-! # The anchored root

    `verifyAnchoredRoot` places the leaf, trusts the head, and asks each chain
    the head claims for its anchor.  A chain whose lookup only failed is
    covered by the other one.  What other modules answer about an input (the
    head's signature, the wallet lists, the epochs, the issuer pin, the newest
    anchor) is part of that input here. -/

namespace AnchorWitness

open AnchorRetry AnchorAnswer AnchorLeaf HexDigest
open JsText (truthy)

/-! ## Data -/

def LEGACY_HEAD_UNPINNED_SIGNER : String := "LEGACY_HEAD_UNPINNED_SIGNER"

/-- `verifyTreeHeadTrust(head)`, and whether the payload omits the pinned signer. -/
structure HeadTrust where
  ok : Bool
  reason : Option String
  omitsPinnedSigner : Bool

structure IssuerPinAssessment where
  checked : Bool
  ok : Bool
  code : Option String

structure WalletList where
  base : List String
  solana : List String

structure EpochRow where
  epoch : ℚ
  final_root : Option String
  opening_root : Option String
  final_size : Option ℚ
  opening_size : Option ℚ

/-- A root and a size, as an epoch link asks for them. -/
structure PreviousEpoch where
  root : Option String
  tree_size : Option ℚ

/-- What the other modules answer about an input. -/
structure Answers where
  headTrust : HeadTrust
  /-- The wallet document, when there is one, verified. -/
  walletDocument : Option Bool
  walletList : WalletList
  issuerPin : IssuerPinAssessment
  /-- `verifyEpochRecord`: no reason when it is ok. -/
  epochRecordReason : Option String
  /-- `verifyEpochLink`: no reason when it is ok. -/
  epochLinkReason : Option PreviousEpoch → Option String
  /-- The newest anchor's root, or a throw. -/
  newestAnchor : Except Unit (Option String)
  unloggedReason : Option String

structure Input where
  receipt : AnchorReceipt
  inclusion : AnchorInclusion
  head : AnchorHead
  signedLeaf : Option SignedLeaf
  /-- The rows of the epoch record, when there is one. -/
  epochRecord : Option (List EpochRow)
  checkNewestAnchor : Bool
  rpcUrls : Side → List String
  rpcUrl : Side → Option String
  envRpcUrl : Side → Option String
  attemptsPerUrl : Option Number
  budgetOver : Side → ℕ → Bool
  solanaAnswers : ℕ → SolanaAnswer
  baseAnswers : ℕ → BaseAnswer
  answers : Answers

inductive Overall
  | verified
  | partly
  | pending
  | failed
  | not_in_log
  | could_not_check
deriving DecidableEq

structure SolanaReport where
  checked : Bool
  valid : Bool
  signature : Option String
  slot : Option ℚ
  cluster : Option String
  memo : Option String
  fee_payer : Option String
  reason : Option String
  attempts : Option ℕ
  rpc : Option String

structure BaseReport where
  checked : Bool
  valid : Bool
  tx : Option String
  chain_id : Option ℚ
  «from» : Option String
  reason : Option String
  attempts : Option ℕ
  rpc : Option String

structure AnchorWitnessResult where
  overall : Overall
  root : Option String
  inclusion : InclusionReport
  unlogged_reason : Option String
  solana : SolanaReport
  base : BaseReport
  anchor_warnings : List String
  proves : List String
  errors : List String

/-! ## The endpoints -/

def BASE_ANCHOR_RPC_FALLBACKS : List String :=
  ["https://mainnet.base.org", "https://base-rpc.publicnode.com", "https://1rpc.io/base"]

def SOLANA_ANCHOR_RPC_FALLBACKS : List String :=
  ["https://api.mainnet-beta.solana.com", "https://solana-rpc.publicnode.com"]

def anchorRpcUrls (side : Side) (env : Option String) : List String :=
  match truthy (env.map fun raw => String.ofList (JsText.trim raw.toList)) with
  | some url => [url]
  | none => if side = .base then BASE_ANCHOR_RPC_FALLBACKS else SOLANA_ANCHOR_RPC_FALLBACKS

def Input.rpcs (input : Input) (side : Side) : List String :=
  if input.rpcUrls side ≠ [] then input.rpcUrls side
  else match truthy (input.rpcUrl side) with
    | some url => [url]
    | none => anchorRpcUrls side (input.envRpcUrl side)

def Input.retry (input : Input) (side : Side) : RetryPolicy := ⟨input.attemptsPerUrl, input.budgetOver side⟩

section Witness

variable (js : Text) (sha256 : List UInt8 → Digest) (input : Input)

/-! ## Before the chains -/

def root : Option String := normalizeRoot js input.head.root

def inclusion : InclusionReport := checkInclusion js sha256 input.receipt input.inclusion input.head input.signedLeaf

/-- A pending leaf with no other fault. -/
def pendingAnchor : Bool :=
  pendingLeaf input.inclusion && (inclusion js sha256 input).reason = some "pending_anchor"

def epochLinks : Option String :=
  match input.epochRecord with
  | none => some "epoch_record_missing"
  | some rows =>
    match input.answers.epochRecordReason with
    | some reason => some reason
    | none =>
      match input.head.epoch.filter (1 < ·) with
      | some epoch =>
        input.answers.epochLinkReason ((rows.find? fun row => row.epoch = epoch - 1).map fun prev =>
          ⟨truthy prev.final_root <|> truthy prev.opening_root, prev.final_size <|> prev.opening_size⟩)
      | none => input.answers.epochLinkReason none

def epochReason : Option String :=
  let unlinked := if input.head.epoch = none then input.answers.epochLinkReason none else none
  if unlinked.isSome then unlinked
  else if input.head.epoch.isSome || input.epochRecord.isSome then epochLinks input
  else none

def legacyHead : Bool := input.answers.headTrust.ok && input.answers.headTrust.omitsPinnedSigner

def signedFrom : Option String := truthy (input.head.base.bind BaseAnchor.from)

def signedPayer : Option String := truthy (input.head.solana.bind SolanaAnchor.fee_payer)

def walletListed (list : List String) (value : String) : Side → Bool
  | .base => list.any fun item => js.toLowerCase item = js.toLowerCase value
  | .solana => value ∈ list

def senderUnlisted : Bool :=
  (signedFrom input).any fun sender => !walletListed js input.answers.walletList.base sender .base

def payerUnlisted : Bool :=
  (signedPayer input).any fun payer => !walletListed js input.answers.walletList.solana payer .solana

def headHasAnchor : Bool := (solanaSignature input.head).isSome || (baseTxHash input.head).isSome

def claimsAnchored : Bool :=
  input.inclusion.status = some "anchored" || input.inclusion.anchor_status = some "anchored"

def headNotAnchored : Bool :=
  !headHasAnchor input && (claimsAnchored input || pendingAnchor js sha256 input)

/-- One entry of the error list. -/
def raised (flag : Bool) (code : String) : List String := if flag then [code] else []

/-- The errors up to the wallet document, in order. -/
def firstErrors : List String :=
  let report := inclusion js sha256 input
  (if !pendingAnchor js sha256 input && !report.valid then report.reason.toList else [])
    ++ (epochReason input).toList
    ++ (if input.answers.headTrust.ok then [] else (truthy input.answers.headTrust.reason).toList)
    ++ raised (legacyHead input) LEGACY_HEAD_UNPINNED_SIGNER
    ++ raised (input.answers.walletDocument = some false) "anchor_wallets_invalid"

def walletFailed : Bool :=
  "anchor_wallets_invalid" ∈ firstErrors js sha256 input || senderUnlisted js input || payerUnlisted js input

/-- The errors before any chain is asked. -/
def headErrors : List String :=
  firstErrors js sha256 input
    ++ raised (senderUnlisted js input) "anchor_sender_unlisted"
    ++ raised (payerUnlisted js input) "fee_payer_unlisted"
    ++ raised (headNotAnchored js sha256 input) "head_not_anchored"

/-- Why no chain is asked: a reason for Solana and one for Base. -/
def notAsked : Option (String × String) :=
  if pendingAnchor js sha256 input then some ("pending_anchor", "pending_anchor")
  else if ¬ (inclusion js sha256 input).valid then some ("inclusion_failed", "inclusion_failed")
  else if ¬ input.answers.headTrust.ok ∨ walletFailed js sha256 input then
    let reason :=
      if input.answers.headTrust.ok then
        ((headErrors js sha256 input).find? fun code =>
          "anchor_".toList.isPrefixOf code.toList || "fee_payer".toList.isPrefixOf code.toList).getD
            "anchor_wallets_invalid"
      else (truthy input.answers.headTrust.reason).getD "head_signature_invalid"
    some (
      if (signedPayer input).isSome ∧ "fee_payer_unlisted" ∈ headErrors js sha256 input then "fee_payer_unlisted"
      else reason,
      if (signedFrom input).isSome ∧ "anchor_sender_unlisted" ∈ headErrors js sha256 input then "anchor_sender_unlisted"
      else reason)
  else if legacyHead input then some (LEGACY_HEAD_UNPINNED_SIGNER, LEGACY_HEAD_UNPINNED_SIGNER)
  else none

/-! ## Solana -/

def solanaStart : SolanaReport where
  checked := false
  valid := false
  signature := input.head.solana.bind SolanaAnchor.signature
  slot := input.head.solana.bind SolanaAnchor.slot
  cluster := input.head.solana.bind SolanaAnchor.cluster
  memo := input.head.solana.bind SolanaAnchor.memo
  fee_payer := input.head.solana.bind SolanaAnchor.fee_payer
  reason := none
  attempts := none
  rpc := none

/-- The reason of one answer, none when it confirms the root. -/
def solanaReason (root signature payer : String) (a : SolanaAnswer) : Option String :=
  match solanaCheck js input.head root signature payer a with
  | .error reason => some reason
  | .ok _ => none

def writeSolana (root signature payer : String) (a : SolanaAnswer) (report : SolanaReport) : SolanaReport :=
  match solanaCheck js input.head root signature payer a with
  | .error reason => { report with reason := some reason }
  | .ok found =>
    { report with reason := none, valid := true, memo := some found.memo, slot := found.slot <|> report.slot }

def runSolana (root signature payer : String) : Ran (ℕ × SolanaReport) :=
  runAnchorSide .solana (input.retry .solana)
    (reading input.solanaAnswers (solanaReason js input root signature payer)
      (writeSolana js input root signature payer))
    (input.rpcs .solana) (0, { solanaStart input with checked := true })

/-- The report reads the reason the last attempt wrote. -/
def askSolana (root : String) : SolanaReport :=
  match solanaSignature input.head, signedPayer input with
  | none, _ => { solanaStart input with reason := some "pending" }
  | some _, none => { solanaStart input with reason := some "fee_payer_missing" }
  | some signature, some payer =>
    if isSolanaSignatureRef signature then
      let ran := runSolana js input root signature payer
      { ran.state.2 with attempts := some ran.attempts, rpc := ran.url }
    else { solanaStart input with checked := true, reason := some "anchor_ref_invalid" }

/-! ## Base -/

def baseStart : BaseReport where
  checked := false
  valid := false
  tx := truthy (input.head.base.bind BaseAnchor.tx) <|> truthy (input.head.anchor.bind OldAnchor.tx)
    <|> truthy input.head.anchor_tx
  chain_id := input.head.base.bind BaseAnchor.chain_id <|> input.head.anchor.bind OldAnchor.chain_id
  «from» := input.head.base.bind BaseAnchor.from
  reason := none
  attempts := none
  rpc := none

def baseReason (root txHash sender : String) (a : BaseAnswer) : Option String :=
  match baseCheck js input.head root txHash sender a with
  | .error refusal => some refusal.reason
  | .ok _ => none

def writeBase (root txHash sender : String) (a : BaseAnswer) (report : BaseReport) : BaseReport :=
  match baseCheck js input.head root txHash sender a with
  | .error refusal =>
    { report with reason := some refusal.reason, chain_id := refusal.chainId.map Nat.cast <|> report.chain_id }
  | .ok found => { report with reason := none, valid := true, tx := some found.tx, chain_id := some found.chainId }

def runBase (root txHash sender : String) : Ran (ℕ × BaseReport) :=
  runAnchorSide .base (input.retry .base)
    (reading input.baseAnswers (baseReason js input root txHash sender) (writeBase js input root txHash sender))
    (input.rpcs .base) (0, { baseStart input with checked := true })

def askBase (root : String) : BaseReport :=
  match baseTxHash input.head, signedFrom input with
  | none, _ => { baseStart input with reason := some "pending" }
  | some _, none => { baseStart input with reason := some "anchor_sender_missing" }
  | some txHash, some sender =>
    if isBaseTxHashRef txHash then
      let ran := runBase js input root txHash sender
      { ran.state.2 with attempts := some ran.attempts, rpc := ran.url }
    else { baseStart input with checked := true, reason := some "anchor_ref_invalid" }

/-! ## The verdict -/

def solana : SolanaReport :=
  match notAsked js sha256 input with
  | some reasons => { solanaStart input with reason := some reasons.1 }
  | none => askSolana js input ((root js input).getD "")

def base : BaseReport :=
  match notAsked js sha256 input with
  | some reasons => { baseStart input with reason := some reasons.2 }
  | none => askBase js input ((root js input).getD "")

def staleReason : Option String :=
  if input.checkNewestAnchor && headHasAnchor input then
    match (signedPayer input).filter (walletListed js input.answers.walletList.solana · .solana), root js input with
    | some _, some root =>
      match input.answers.newestAnchor with
      | .error _ => some "newest_anchor_unavailable"
      | .ok found =>
        match truthy found with
        | none => some "newest_anchor_unavailable"
        | some newest => if newest = root then none else some "stale_head"
    | _, _ => some "newest_anchor_unavailable"
  else none

def pinFailed : Bool := input.answers.issuerPin.checked && !input.answers.issuerPin.ok

/-- A signed head verifies when every chain it claims is valid, and it claims at least one. -/
def anchoredChainsVerified (head : AnchorHead) (solanaValid baseValid : Bool) : Bool :=
  let solanaOn := (solanaSignature head).isSome
  let baseOn := (baseTxHash head).isSome
  if !solanaOn && !baseOn then false
  else if head.solana.any (fun sol => sol.status ≠ some "pending") && !solanaOn then false
  else if head.base.any (fun base => base.status ≠ some "pending") && !baseOn then false
  else (!solanaOn || solanaValid) && (!baseOn || baseValid)

/-- A reason that is neither a chain not claimed nor a read that failed. -/
def failsSide (reason : Option String) : Bool :=
  (truthy reason).any fun r => r ≠ "pending" && r ≠ "pending_anchor" && !isUncheckedAnchorReason (some r)

def chainAsideFromInclusion (reason : Option String) : Bool :=
  (truthy reason).any fun r => r ≠ "pending" && r ≠ "pending_anchor" && r ≠ "inclusion_failed"

/-- The two sides, as the verdict reads them. -/
structure SideView where
  checked : Bool
  valid : Bool
  reason : Option String

def SolanaReport.view (r : SolanaReport) : SideView := ⟨r.checked, r.valid, r.reason⟩

def BaseReport.view (r : BaseReport) : SideView := ⟨r.checked, r.valid, r.reason⟩

def SideView.lookupFailed (v : SideView) : Bool := v.checked && !v.valid && isRpcLookupFailure v.reason

def SideView.coveredBy (v other : SideView) : Bool := v.valid || (v.lookupFailed && other.checked && other.valid)

def SideView.refuted (v : SideView) : Bool := v.checked && !v.valid && !isUncheckedAnchorReason v.reason

def SideView.unchecked (v other : SideView) : Bool := isUncheckedAnchorReason v.reason && !v.coveredBy other

/-- `errors.push(side:reason)`, after a chain that was asked. -/
def SideView.error (v : SideView) (side : Side) : List String :=
  if v.checked then
    if v.valid then [] else (truthy v.reason).toList.map fun reason => side.text ++ ":" ++ reason
  else (v.reason.filter fun r => r = "pending").toList.map (fun _ => side.text ++ "_pending")
    ++ (v.reason.filter fun r => r = "fee_payer_missing" || r = "anchor_sender_missing").toList

def errors : List String :=
  headErrors js sha256 input
    ++ (if (notAsked js sha256 input).isSome then []
        else (solana js sha256 input).view.error .solana ++ (base js sha256 input).view.error .base)
    ++ (if pinFailed input then (truthy input.answers.issuerPin.code).toList else [])
    ++ (staleReason js input).toList

/-- No fault but those of the chains themselves. -/
def pendingOk : Bool :=
  pendingAnchor js sha256 input && input.answers.headTrust.ok && !walletFailed js sha256 input && !legacyHead input
    && (epochReason input).isNone && (staleReason js input).isNone && !pinFailed input && headHasAnchor input
    && "head_not_anchored" ∉ errors js sha256 input

def otherAnchorFailure : Bool :=
  (epochReason input).isSome || !input.answers.headTrust.ok || walletFailed js sha256 input || legacyHead input
    || chainAsideFromInclusion (solana js sha256 input).reason || chainAsideFromInclusion (base js sha256 input).reason
    || (staleReason js input).isSome || "head_not_anchored" ∈ errors js sha256 input || pinFailed input

/-- What fails whatever the chains answered. -/
def headFailed : Bool :=
  !(inclusion js sha256 input).valid || (epochReason input).isSome || !input.answers.headTrust.ok
    || walletFailed js sha256 input || legacyHead input || (staleReason js input).isSome
    || "head_not_anchored" ∈ errors js sha256 input || pinFailed input

def overall : Overall :=
  let sol := (solana js sha256 input).view
  let bas := (base js sha256 input).view
  if (inclusion js sha256 input).reason = some "not_in_tree" ∧ ¬ otherAnchorFailure js sha256 input then .not_in_log
  else if pendingOk js sha256 input then .pending
  else if headFailed js sha256 input || failsSide sol.reason || failsSide bas.reason || sol.refuted || bas.refuted then
    .failed
  else if sol.unchecked bas || bas.unchecked sol then .could_not_check
  else if anchoredChainsVerified input.head (sol.coveredBy bas) (bas.coveredBy sol) then .verified
  else .partly

def anchorWarnings : List String :=
  let sol := (solana js sha256 input).view
  let bas := (base js sha256 input).view
  if overall js sha256 input = .verified then
    (if sol.lookupFailed && sol.coveredBy bas then sol.reason.toList.map ("solana:" ++ ·) else [])
      ++ (if bas.lookupFailed && bas.coveredBy sol then bas.reason.toList.map ("base:" ++ ·) else [])
  else []

def ANCHOR_PROVES_LEAF : String :=
  "This receipt leaf is inside the tree of the stated size, under the stated root."

def ANCHOR_PROVES_HEAD : String :=
  "The tree head carries a valid ES256 issuer signature. The kid is trusted by the production pin, issuer history, or JWKS, and the signed root, size, epoch, and anchors match the head."

def ANCHOR_PROVES_SOLANA : String :=
  "The Solana transaction memo contains that root, its fee payer is the signed fee payer, the transaction is finalized, and the RPC genesis hash is the cluster named on the head."

def ANCHOR_PROVES_BASE : String :=
  "The Base transaction receipt succeeded, its block is at least 12 blocks below the tip, its calldata is that same root, on chain id 8453, and its sender is the signed anchor wallet."

def ANCHOR_PROVES_WALLETS : String :=
  "Those wallets are on the issuer anchor-wallet list: the package pin, or a signed well-known or issuer-history list."

/-- A chain line appears only when that chain was checked and its transaction passed. -/
def anchorProves (solanaPassed basePassed : Bool) : List String :=
  [ANCHOR_PROVES_LEAF, ANCHOR_PROVES_HEAD] ++ raised solanaPassed ANCHOR_PROVES_SOLANA
    ++ raised basePassed ANCHOR_PROVES_BASE ++ raised (solanaPassed || basePassed) ANCHOR_PROVES_WALLETS

def proves : List String :=
  let sol := (solana js sha256 input).view
  let bas := (base js sha256 input).view
  match overall js sha256 input with
  | .pending => ["This leaf is past the anchored tree size. It waits for the next anchor."]
  | .verified | .partly => anchorProves (sol.checked && sol.valid) (bas.checked && bas.valid)
  | _ => []

def verifyAnchoredRoot : AnchorWitnessResult where
  overall := overall js sha256 input
  root := root js input
  inclusion := inclusion js sha256 input
  unlogged_reason :=
    if (inclusion js sha256 input).valid || (epochReason input).isSome then none else input.answers.unloggedReason
  solana := solana js sha256 input
  base := base js sha256 input
  anchor_warnings := anchorWarnings js sha256 input
  proves := proves js sha256 input
  errors := errors js sha256 input

end Witness

/-! ## What the endpoints answered -/

section Sound

variable (js : Text) (sha256 : List UInt8 → Digest) (input : Input)

/-- The signature and the fee payer Solana is asked about. -/
def solanaAsked : Option (String × String) :=
  match solanaSignature input.head, signedPayer input with
  | some signature, some payer => if isSolanaSignatureRef signature then some (signature, payer) else none
  | _, _ => none

/-- The transaction and the sender Base is asked about. -/
def baseAsked : Option (String × String) :=
  match baseTxHash input.head, signedFrom input with
  | some txHash, some sender => if isBaseTxHashRef txHash then some (txHash, sender) else none
  | _, _ => none

/-- The reason of each Solana answer, for the refs asked about. -/
def solanaReasons (refs : String × String) (k : ℕ) : Option String :=
  solanaReason js input ((root js input).getD "") refs.1 refs.2 (input.solanaAnswers k)

def baseReasons (refs : String × String) (k : ℕ) : Option String :=
  baseReason js input ((root js input).getD "") refs.1 refs.2 (input.baseAnswers k)

/-- How many answers are obtained from a chain's endpoints. -/
def obtained (side : Side) (reasons : ℕ → Option String) : ℕ :=
  attemptsMade side (input.retry side) (input.rpcs side) reasons

/-- **Some endpoint's answer confirmed the root on Solana.** -/
def SolanaConfirmed : Prop :=
  ∃ refs ∈ solanaAsked input, ∃ k < obtained input .solana (solanaReasons js input refs), ∃ tx genesis,
    (input.solanaAnswers k).tx = .ok (some tx) ∧ (input.solanaAnswers k).genesis = .ok genesis
      ∧ SolanaConfirms js input.head ((root js input).getD "") refs.1 refs.2 tx genesis

/-- **Some endpoint's answer confirmed the root on Base.** -/
def BaseConfirmed : Prop :=
  ∃ refs ∈ baseAsked input, ∃ k < obtained input .base (baseReasons js input refs), ∃ tx,
    input.baseAnswers k = .ok (some tx) ∧ BaseConfirms js input.head ((root js input).getD "") refs.1 refs.2 tx

/-- Every answer obtained was a transport failure. -/
def OnlyTransport (side : Side) (reasons : ℕ → Option String) : Prop :=
  ∀ k < obtained input side reasons, isRpcLookupFailure (reasons k) = true

/-- **Coverage is sound**: a verified result has the receipt's leaf under the
    root of a trusted head, and each claimed chain confirmed or unreachable
    beside a confirmed one. -/
def CoverageSound : Prop :=
  (verifyAnchoredRoot js sha256 input).overall = .verified →
    (∃ root leaf index, normalizeRoot js input.head.root = some root
      ∧ ReceiptLeaf sha256 input.receipt input.inclusion input.signedLeaf leaf index
      ∧ IncludedUnder sha256 leaf index.num.toNat input.inclusion.tree_size.num.toNat root)
    ∧ input.answers.headTrust.ok = true
    ∧ ((solanaSignature input.head).isSome → SolanaConfirmed js input
      ∨ ((∃ refs ∈ solanaAsked input, OnlyTransport input .solana (solanaReasons js input refs))
        ∧ BaseConfirmed js input))
    ∧ ((baseTxHash input.head).isSome → BaseConfirmed js input
      ∨ ((∃ refs ∈ baseAsked input, OnlyTransport input .base (baseReasons js input refs)) ∧ SolanaConfirmed js input))

/-- An endpoint rejected the call, and the last answer was a transport failure. -/
def RejectedThenSilent (side : Side) (reasons : ℕ → Option String) : Prop :=
  (∃ k < obtained input side reasons, reasons k = some (rpcRejected side))
    ∧ ∃ k, k + 1 = obtained input side reasons ∧ isRpcLookupFailure (reasons k) = true

/-- Everything but the chains passes. -/
structure Passes : Prop where
  included : (inclusion js sha256 input).valid = true
  epoch : epochReason input = none
  trusted : input.answers.headTrust.ok = true
  wallets : walletFailed js sha256 input = false
  pinned : legacyHead input = false
  fresh : staleReason js input = none
  issuer : pinFailed input = false

/-- **The failing kind.** One chain's endpoints rejected the call and then fell
    silent, the other chain confirmed, and nothing else was wrong. -/
def RejectionCovered : Prop :=
  Passes js sha256 input
    ∧ ((∃ refs ∈ solanaAsked input, RejectedThenSilent input .solana (solanaReasons js input refs))
      ∧ BaseConfirmed js input
      ∨ (∃ refs ∈ baseAsked input, RejectedThenSilent input .base (baseReasons js input refs))
        ∧ SolanaConfirmed js input)

end Sound

/-! ## What a side's report holds -/

variable {refs : String × String}

section Views

variable {js : Text} {sha256 : List UInt8 → Digest} {input : Input}

/-- **A side that was asked**: its report shows the last answer's reason, and
    is valid when some answer gave none. -/
structure Saw (side : Side) (v : SideView) (reasons : ℕ → Option String) (n : ℕ) : Prop where
  checked : v.checked = true
  valid : v.valid = true ↔ ∃ k < n, reasons k = none
  last : ∀ k, k + 1 = n → v.reason = reasons k
  unread : n = 0 → v.reason = none
  retried : ∀ k, k + 1 < n → Retried side (reasons k)

theorem not_retried_none (side : Side) : ¬ Retried side none := by
  rintro (h | h) <;> cases h

variable {side : Side} {v : SideView} {reasons : ℕ → Option String} {n : ℕ}

theorem Saw.last_of_none (h : Saw side v reasons n) {k : ℕ} (hk : k < n) (hnone : reasons k = none) : k + 1 = n := by
  by_contra hne
  have hretried := h.retried k (by omega)
  rw [hnone] at hretried
  exact not_retried_none side hretried

theorem Saw.reason_of_valid (h : Saw side v reasons n) (hvalid : v.valid = true) : v.reason = none := by
  obtain ⟨k, hk, hnone⟩ := h.valid.1 hvalid
  rw [h.last k (h.last_of_none hk hnone), hnone]

theorem Saw.lookupFailed_iff (h : Saw side v reasons n) :
    v.lookupFailed = true ↔ ∃ k, k + 1 = n ∧ isRpcLookupFailure (reasons k) = true := by
  simp only [SideView.lookupFailed, h.checked, Bool.true_and, Bool.and_eq_true, Bool.not_eq_true']
  constructor
  · rintro ⟨-, hfailed⟩
    rcases Nat.eq_zero_or_pos n with hzero | hpos
    · rw [h.unread hzero] at hfailed
      cases hfailed
    · have hn : n - 1 + 1 = n := by omega
      rw [h.last (n - 1) hn] at hfailed
      exact ⟨n - 1, hn, hfailed⟩
  · rintro ⟨k, hk, hfailed⟩
    refine ⟨?_, by rw [h.last k hk]; exact hfailed⟩
    rw [← Bool.not_eq_true, h.valid]
    rintro ⟨j, hj, hnone⟩
    have hjk : j = k := by
      have := h.last_of_none hj hnone
      omega
    rw [← hjk, hnone] at hfailed
    cases hfailed

/-- What the report of a side becomes with one more answer. -/
def SideView.after (v : SideView) (reason : Option String) : SideView := ⟨v.checked, v.valid || reason.isNone, reason⟩

theorem written_view {α ρ : Type} {answer : ℕ → α} {reasonOf : α → Option String}
    {write : α → ρ → ρ} {view : ρ → SideView}
    (hwrite : ∀ a s, view (write a s) = (view s).after (reasonOf a)) {s : ρ} (hchecked : (view s).checked = true)
    (hvalid : (view s).valid = false) (hreason : (view s).reason = none) (n : ℕ) :
    (view (written answer write s n)).checked = true
      ∧ ((view (written answer write s n)).valid = true ↔ ∃ k < n, reasonOf (answer k) = none)
      ∧ (∀ k, k + 1 = n → (view (written answer write s n)).reason = reasonOf (answer k))
      ∧ (n = 0 → (view (written answer write s n)).reason = none) := by
  induction n with
  | zero =>
    refine ⟨hchecked, ?_, ?_, fun _ => hreason⟩
    · rw [written, hvalid]
      simp
    · exact fun k hk => absurd hk (Nat.succ_ne_zero k)
  | succ n ih =>
    obtain ⟨hchecked', hvalid', -, -⟩ := ih
    rw [written, hwrite]
    refine ⟨hchecked', ?_, ?_, fun h => absurd h (Nat.succ_ne_zero n)⟩
    · simp only [SideView.after, Bool.or_eq_true, hvalid', Option.isNone_iff_eq_none]
      constructor
      · rintro (⟨k, hk, hnone⟩ | hnone)
        · exact ⟨k, Nat.lt_succ_of_lt hk, hnone⟩
        · exact ⟨n, Nat.lt_succ_self n, hnone⟩
      · rintro ⟨k, hk, hnone⟩
        rcases Nat.lt_succ_iff_lt_or_eq.1 hk with hk | rfl
        · exact Or.inl ⟨k, hk, hnone⟩
        · exact Or.inr hnone
    · intro k hk
      rw [Nat.succ.inj hk]
      rfl

/-- What a run over a side's answers leaves in its report. -/
theorem saw_of_run {α ρ : Type} {answer : ℕ → α} {reasonOf : α → Option String} {write : α → ρ → ρ}
    (view : ρ → SideView)
    {policy : RetryPolicy} {urls : List String} (hwrite : ∀ a s, view (write a s) = (view s).after (reasonOf a)) {s : ρ}
    (hchecked : (view s).checked = true) (hvalid : (view s).valid = false) (hreason : (view s).reason = none) :
    Saw side (view (runAnchorSide side policy (reading answer reasonOf write) urls (0, s)).state.2)
      (fun k => reasonOf (answer k)) (attemptsMade side policy urls fun k => reasonOf (answer k)) := by
  have hreturns := @runAnchorSide_returns _ _ side policy answer reasonOf write s urls
  rw [hreturns.content]
  rw [runAnchorSide_attempts]
  obtain ⟨h1, h2, h3, h4⟩ := written_view hwrite hchecked hvalid hreason
    (attemptsMade side policy urls fun k => reasonOf (answer k))
  refine ⟨h1, h2, h3, h4, fun k hk => hreturns.retried k ?_⟩
  rw [runAnchorSide_attempts]
  exact hk

theorem askSolana_asked {root : String} (h : solanaAsked input = some refs) :
    Saw .solana (askSolana js input root).view
      (fun k => solanaReason js input root refs.1 refs.2 (input.solanaAnswers k))
      (obtained input .solana fun k => solanaReason js input root refs.1 refs.2 (input.solanaAnswers k)) := by
  unfold solanaAsked at h
  unfold askSolana
  cases hsignature : solanaSignature input.head with
  | none => simp [hsignature] at h
  | some signature =>
    cases hpayer : signedPayer input with
    | none => simp [hsignature, hpayer] at h
    | some payer =>
      rw [hsignature, hpayer] at h
      dsimp only at h ⊢
      split_ifs at h ⊢ with href
      cases h
      refine saw_of_run SolanaReport.view ?_ rfl rfl rfl
      intro a report
      unfold writeSolana solanaReason
      cases solanaCheck js input.head root signature payer a with
      | error | ok => simp [SolanaReport.view, SideView.after]

theorem askBase_asked {root : String} (h : baseAsked input = some refs) :
    Saw .base (askBase js input root).view (fun k => baseReason js input root refs.1 refs.2 (input.baseAnswers k))
      (obtained input .base fun k => baseReason js input root refs.1 refs.2 (input.baseAnswers k)) := by
  unfold baseAsked at h
  unfold askBase
  cases htx : baseTxHash input.head with
  | none => simp [htx] at h
  | some txHash =>
    cases hsender : signedFrom input with
    | none => simp [htx, hsender] at h
    | some sender =>
      rw [htx, hsender] at h
      dsimp only at h ⊢
      split_ifs at h ⊢ with href
      cases h
      refine saw_of_run BaseReport.view ?_ rfl rfl rfl
      intro a report
      unfold writeBase baseReason
      cases baseCheck js input.head root txHash sender a with
      | error | ok => simp [BaseReport.view, SideView.after]

theorem askSolana_unasked {root : String} (h : solanaAsked input = none) :
    (askSolana js input root).valid = false ∧ (askSolana js input root).view.lookupFailed = false := by
  unfold solanaAsked at h
  unfold askSolana
  split
  · exact ⟨rfl, rfl⟩
  · exact ⟨rfl, rfl⟩
  · rename_i signature payer hsignature hpayer
    rw [hsignature, hpayer] at h
    dsimp only at h
    split_ifs at h ⊢
    exact ⟨rfl, rfl⟩

theorem askBase_unasked {root : String} (h : baseAsked input = none) :
    (askBase js input root).valid = false ∧ (askBase js input root).view.lookupFailed = false := by
  unfold baseAsked at h
  unfold askBase
  split
  · exact ⟨rfl, rfl⟩
  · exact ⟨rfl, rfl⟩
  · rename_i txHash sender htx hsender
    rw [htx, hsender] at h
    dsimp only at h
    split_ifs at h ⊢
    exact ⟨rfl, rfl⟩

/-- An answer gives no reason exactly when it confirms the root. -/
theorem solanaReason_none_iff {root signature payer : String} {a : SolanaAnswer} :
    solanaReason js input root signature payer a = none ↔ ∃ tx genesis, a.tx = .ok (some tx) ∧ a.genesis = .ok genesis
        ∧ SolanaConfirms js input.head root signature payer tx genesis := by
  unfold solanaReason
  constructor
  · intro h
    cases hcheck : solanaCheck js input.head root signature payer a with
    | error reason =>
      rw [hcheck] at h
      cases h
    | ok found => exact solanaCheck_ok hcheck
  · rintro ⟨tx, genesis, htx, hgenesis, hconfirms⟩
    obtain ⟨found, hcheck⟩ := solanaCheck_of_confirms htx hgenesis hconfirms
    rw [hcheck]

theorem baseReason_none_iff {root txHash sender : String} {a : BaseAnswer} :
    baseReason js input root txHash sender a = none
      ↔ ∃ tx, a = .ok (some tx) ∧ BaseConfirms js input.head root txHash sender tx := by
  unfold baseReason
  constructor
  · intro h
    cases hcheck : baseCheck js input.head root txHash sender a with
    | error refusal =>
      rw [hcheck] at h
      cases h
    | ok found => exact baseCheck_ok hcheck
  · rintro ⟨tx, rfl, hconfirms⟩
    obtain ⟨found, hcheck⟩ := baseCheck_of_confirms hconfirms
    rw [hcheck]

/-! ## The verdict -/

theorem pendingAnchor_of_valid (h : (inclusion js sha256 input).valid = true) :
    pendingAnchor js sha256 input = false := by
  have hreason : (inclusion js sha256 input).reason = none := (checkInclusion_sound h).1
  unfold pendingAnchor
  rw [hreason]
  simp

section

variable (h : Passes js sha256 input)
include h

theorem Passes.notAsked : notAsked js sha256 input = none := by
  simp [AnchorWitness.notAsked, pendingAnchor_of_valid h.included, h.included, h.trusted, h.wallets, h.pinned]

theorem Passes.solana : solana js sha256 input = askSolana js input ((root js input).getD "") := by
  rw [AnchorWitness.solana, h.notAsked]

theorem Passes.base : base js sha256 input = askBase js input ((root js input).getD "") := by
  rw [AnchorWitness.base, h.notAsked]

theorem Passes.saw_solana (hrefs : solanaAsked input = some refs) :
    Saw .solana (AnchorWitness.solana js sha256 input).view (solanaReasons js input refs)
      (obtained input .solana (solanaReasons js input refs)) := by
  rw [h.solana]
  exact askSolana_asked hrefs

theorem Passes.saw_base (hrefs : baseAsked input = some refs) :
    Saw .base (AnchorWitness.base js sha256 input).view (baseReasons js input refs)
      (obtained input .base (baseReasons js input refs)) := by
  rw [h.base]
  exact askBase_asked hrefs

/-- A valid report is a confirmed chain. -/
theorem Passes.solana_valid_iff : (AnchorWitness.solana js sha256 input).valid = true ↔ SolanaConfirmed js input := by
  constructor
  · intro hvalid
    cases hasked : solanaAsked input with
    | none =>
      rw [h.solana, (askSolana_unasked hasked).1] at hvalid
      cases hvalid
    | some refs =>
      obtain ⟨k, hk, hnone⟩ := (h.saw_solana hasked).valid.1 hvalid
      exact ⟨refs, hasked, k, hk, solanaReason_none_iff.1 hnone⟩
  · rintro ⟨refs, hasked, k, hk, hconfirms⟩
    exact (h.saw_solana hasked).valid.2 ⟨k, hk, solanaReason_none_iff.2 hconfirms⟩

theorem Passes.base_valid_iff : (AnchorWitness.base js sha256 input).valid = true ↔ BaseConfirmed js input := by
  constructor
  · intro hvalid
    cases hasked : baseAsked input with
    | none =>
      rw [h.base, (askBase_unasked hasked).1] at hvalid
      cases hvalid
    | some refs =>
      obtain ⟨k, hk, hnone⟩ := (h.saw_base hasked).valid.1 hvalid
      exact ⟨refs, hasked, k, hk, baseReason_none_iff.1 hnone⟩
  · rintro ⟨refs, hasked, k, hk, hconfirms⟩
    exact (h.saw_base hasked).valid.2 ⟨k, hk, baseReason_none_iff.2 hconfirms⟩

end

theorem Saw.onlyTransport {v : SideView} {reasons : ℕ → Option String} {side : Side}
    (h : Saw side v reasons (obtained input side reasons)) (hfailed : v.lookupFailed = true)
    (hclean : ¬ RejectedThenSilent input side reasons) : OnlyTransport input side reasons := by
  obtain ⟨last, hlast, hfails⟩ := h.lookupFailed_iff.1 hfailed
  intro k hk
  rcases Nat.lt_or_ge (k + 1) (obtained input side reasons) with hlt | hge
  · rcases h.retried k hlt with hrejected | hlookup
    · exact absurd ⟨⟨k, hk, hrejected⟩, last, hlast, hfails⟩ hclean
    · exact hlookup
  · have hsame : k = last := by omega
    rw [hsame]
    exact hfails

/-- A rejected call and a failed lookup at the end: covered by a report, though not by its answers. -/
theorem Saw.lookupFailed_of_rejected {v : SideView} {reasons : ℕ → Option String} {side : Side}
    (h : Saw side v reasons (obtained input side reasons)) (hrejected : RejectedThenSilent input side reasons) :
    v.lookupFailed = true ∧ (∀ k < obtained input side reasons, reasons k ≠ none)
      ∧ ¬ OnlyTransport input side reasons := by
  obtain ⟨⟨j, hj, hrej⟩, last, hlast, hfails⟩ := hrejected
  refine ⟨h.lookupFailed_iff.2 ⟨last, hlast, hfails⟩, ?_, ?_⟩
  · intro k hk hnone
    have hsame : k = last := by
      have := h.last_of_none hk hnone
      omega
    rw [← hsame, hnone] at hfails
    cases hfails
  · intro honly
    have hlookup := honly j hj
    rw [hrej, not_lookupFailure_rejected] at hlookup
    cases hlookup

theorem passes_of_headFailed (h : headFailed js sha256 input = false) : Passes js sha256 input := by
  simp only [headFailed, Bool.or_eq_false_iff, Bool.not_eq_false', Option.isSome_eq_false_iff,
    Option.isNone_iff_eq_none]
    at h
  obtain ⟨⟨⟨⟨⟨⟨⟨hinc, hepoch⟩, htrust⟩, hwallet⟩, hlegacy⟩, hstale⟩, -⟩, hpin⟩ := h
  exact ⟨hinc, hepoch, htrust, hwallet, hlegacy, hstale, hpin⟩

theorem verified_cases (h : overall js sha256 input = .verified) : Passes js sha256 input
      ∧ anchoredChainsVerified input.head ((solana js sha256 input).view.coveredBy (base js sha256 input).view)
        ((base js sha256 input).view.coveredBy (solana js sha256 input).view) = true := by
  unfold overall at h
  dsimp only at h
  split_ifs at h with hlog hpending hfailed hunchecked hchains
  simp only [Bool.or_eq_true, not_or, Bool.not_eq_true] at hfailed
  exact ⟨passes_of_headFailed hfailed.1.1.1.1, hchains⟩

theorem anchoredChainsVerified_claims {head : AnchorHead} {solanaValid baseValid : Bool}
    (h : anchoredChainsVerified head solanaValid baseValid = true) :
    ((solanaSignature head).isSome = true → solanaValid = true)
      ∧ ((baseTxHash head).isSome = true → baseValid = true) := by
  unfold anchoredChainsVerified at h
  dsimp only at h
  split_ifs at h
  simp only [Bool.and_eq_true, Bool.or_eq_true, Bool.not_eq_true'] at h
  constructor
  · intro hon
    rcases h.1 with hoff | hvalid
    · rw [hoff] at hon
      cases hon
    · exact hvalid
  · intro hon
    rcases h.2 with hoff | hvalid
    · rw [hoff] at hon
      cases hon
    · exact hvalid

/-- A result that names a claimed chain covered has it confirmed, or silent beside a confirmed one. -/
theorem covered_solana (hp : Passes js sha256 input) (hclean : ¬ RejectionCovered js sha256 input)
    (h : (solana js sha256 input).view.coveredBy (base js sha256 input).view = true) : SolanaConfirmed js input
      ∨ ((∃ refs ∈ solanaAsked input, OnlyTransport input .solana (solanaReasons js input refs))
        ∧ BaseConfirmed js input) := by
  simp only [SideView.coveredBy, Bool.or_eq_true, Bool.and_eq_true] at h
  rcases h with hvalid | ⟨⟨hfailed, -⟩, hother⟩
  · exact Or.inl (hp.solana_valid_iff.1 hvalid)
  · have hbase := hp.base_valid_iff.1 hother
    cases hasked : solanaAsked input with
    | none =>
      rw [hp.solana, (askSolana_unasked hasked).2] at hfailed
      cases hfailed
    | some refs =>
      refine Or.inr ⟨⟨refs, rfl, (hp.saw_solana hasked).onlyTransport hfailed fun hrejected => ?_⟩, hbase⟩
      exact hclean ⟨hp, Or.inl ⟨⟨refs, hasked, hrejected⟩, hbase⟩⟩

theorem covered_base (hp : Passes js sha256 input) (hclean : ¬ RejectionCovered js sha256 input)
    (h : (base js sha256 input).view.coveredBy (solana js sha256 input).view = true) : BaseConfirmed js input
      ∨ ((∃ refs ∈ baseAsked input, OnlyTransport input .base (baseReasons js input refs))
        ∧ SolanaConfirmed js input) := by
  simp only [SideView.coveredBy, Bool.or_eq_true, Bool.and_eq_true] at h
  rcases h with hvalid | ⟨⟨hfailed, -⟩, hother⟩
  · exact Or.inl (hp.base_valid_iff.1 hvalid)
  · have hsolana := hp.solana_valid_iff.1 hother
    cases hasked : baseAsked input with
    | none =>
      rw [hp.base, (askBase_unasked hasked).2] at hfailed
      cases hfailed
    | some refs =>
      refine Or.inr ⟨⟨refs, rfl, (hp.saw_base hasked).onlyTransport hfailed fun hrejected => ?_⟩, hsolana⟩
      exact hclean ⟨hp, Or.inr ⟨⟨refs, hasked, hrejected⟩, hsolana⟩⟩

/-- Errors of a chain that was asked name their chain. -/
theorem headNotAnchored_ne_error {v : SideView} (side : Side) : "head_not_anchored" ∉ v.error side := by
  intro hmem
  unfold SideView.error at hmem
  split_ifs at hmem
  · cases hmem
  · rw [List.mem_map] at hmem
    obtain ⟨reason, -, heq⟩ := hmem
    have hhead := congrArg (fun s : String => s.toList.head?) heq
    cases side <;> simp [Side.text] at hhead
  · rw [List.mem_append] at hmem
    rcases hmem with hmem | hmem
    · rw [List.mem_map] at hmem
      obtain ⟨-, -, heq⟩ := hmem
      cases side <;> exact absurd heq (by decide)
    · rw [Option.mem_toList, Option.filter_eq_some_iff] at hmem
      exact absurd hmem.2 (by decide)

theorem Passes.firstErrors (h : Passes js sha256 input) : "head_not_anchored" ∉ firstErrors js sha256 input := by
  simp [AnchorWitness.firstErrors, h.included, h.epoch, h.trusted, h.pinned, raised]

theorem Passes.headFailed (h : Passes js sha256 input) (hanchor : headHasAnchor input = true) :
    headFailed js sha256 input = false := by
  have hhead : "head_not_anchored" ∉ headErrors js sha256 input := by
    simp [headErrors, h.firstErrors, headNotAnchored, hanchor, raised]
  have herrors : "head_not_anchored" ∉ errors js sha256 input := by
    simp [errors, hhead, h.notAsked, h.issuer, h.fresh, headNotAnchored_ne_error]
  simp [AnchorWitness.headFailed, h.included, h.epoch, h.trusted, h.wallets, h.pinned, h.fresh, h.issuer, herrors]

/-- A side that passes the verdict: it neither refutes nor is left unchecked. -/
structure SideView.Settles (v other : SideView) : Prop where
  covered : v.coveredBy other = true
  notFailing : failsSide v.reason = false
  notRefuted : v.refuted = false

theorem Saw.settles_of_valid (h : Saw side v reasons n) (other : SideView) (hvalid : v.valid = true) :
    v.Settles other where
  covered := by simp [SideView.coveredBy, hvalid]
  notFailing := by simp [failsSide, h.reason_of_valid hvalid, truthy]
  notRefuted := by simp [SideView.refuted, hvalid]

theorem settles_of_lookupFailed {other : SideView} (hfailed : v.lookupFailed = true) (hchecked : other.checked = true)
    (hvalid : other.valid = true) : v.Settles other where
  covered := by simp [SideView.coveredBy, hfailed, hchecked, hvalid]
  notFailing := by
    simp only [SideView.lookupFailed, Bool.and_eq_true] at hfailed
    have hunchecked := unchecked_of_lookupFailure hfailed.2
    cases hreason : v.reason with
    | none => rfl
    | some r =>
      rw [hreason] at hunchecked
      by_cases hempty : r = ""
      · simp [failsSide, truthy, hempty]
      · simp [failsSide, truthy, hempty, hunchecked]
  notRefuted := by
    simp only [SideView.lookupFailed, Bool.and_eq_true] at hfailed
    simp [SideView.refuted, unchecked_of_lookupFailure hfailed.2]

/-- Two claimed chains that settle each other make the result verified. -/
theorem Passes.verified (h : Passes js sha256 input) (hsolana : (solanaSignature input.head).isSome = true)
    (hbase : (baseTxHash input.head).isSome = true)
    (hsol : (AnchorWitness.solana js sha256 input).view.Settles (AnchorWitness.base js sha256 input).view)
    (hbas : (AnchorWitness.base js sha256 input).view.Settles (AnchorWitness.solana js sha256 input).view) :
    overall js sha256 input = .verified := by
  have hreason : (inclusion js sha256 input).reason = none := (checkInclusion_sound h.included).1
  have hfailed := h.headFailed (by simp [headHasAnchor, hsolana])
  have hchains : anchoredChainsVerified input.head true true = true := by
    simp [anchoredChainsVerified, hsolana, hbase]
  have hnotin : ¬ ((inclusion js sha256 input).reason = some "not_in_tree"
      ∧ ¬ otherAnchorFailure js sha256 input = true) := by
    rw [hreason]
    simp
  have hpending : pendingOk js sha256 input = false := by
    simp [pendingOk, pendingAnchor_of_valid h.included]
  have hfails : (AnchorWitness.headFailed js sha256 input
    || failsSide (AnchorWitness.solana js sha256 input).view.reason
      || failsSide (AnchorWitness.base js sha256 input).view.reason
      || (AnchorWitness.solana js sha256 input).view.refuted || (AnchorWitness.base js sha256 input).view.refuted)
      = false := by
    rw [hfailed, hsol.notFailing, hbas.notFailing, hsol.notRefuted, hbas.notRefuted]
    rfl
  have hunchecked : ((AnchorWitness.solana js sha256 input).view.unchecked (AnchorWitness.base js sha256 input).view
      || (AnchorWitness.base js sha256 input).view.unchecked (AnchorWitness.solana js sha256 input).view) = false := by
    simp [SideView.unchecked, hsol.covered, hbas.covered]
  unfold overall
  rw [if_neg hnotin, if_neg (by rw [hpending]; exact Bool.false_ne_true),
    if_neg (by rw [hfails]; exact Bool.false_ne_true), if_neg (by rw [hunchecked]; exact Bool.false_ne_true),
    hsol.covered, hbas.covered, if_pos hchains]

theorem solanaAsked_claimed (h : solanaAsked input = some refs) : (solanaSignature input.head).isSome = true := by
  unfold solanaAsked at h
  cases hsignature : solanaSignature input.head with
  | none => simp [hsignature] at h
  | some signature => rfl

theorem baseAsked_claimed (h : baseAsked input = some refs) : (baseTxHash input.head).isSome = true := by
  unfold baseAsked at h
  cases htx : baseTxHash input.head with
  | none => simp [htx] at h
  | some txHash => rfl

/-- Rejected by Solana's endpoints and confirmed on Base: verified, though Solana was neither
    confirmed nor only silent. -/
theorem unsound_solana (hp : Passes js sha256 input) (hrefs : refs ∈ solanaAsked input)
    (hrejected : RejectedThenSilent input .solana (solanaReasons js input refs)) (hbase : BaseConfirmed js input) :
    ¬ CoverageSound js sha256 input := by
  obtain ⟨brefs, hbrefs, hconfirms⟩ := hbase
  have hbase : BaseConfirmed js input := ⟨brefs, hbrefs, hconfirms⟩
  have hvalid := hp.base_valid_iff.2 hbase
  have hsaw := hp.saw_base hbrefs
  obtain ⟨hfailed, hnone, hnotonly⟩ := (hp.saw_solana hrefs).lookupFailed_of_rejected hrejected
  have hverified := hp.verified (solanaAsked_claimed hrefs) (baseAsked_claimed hbrefs)
    (settles_of_lookupFailed hfailed hsaw.checked hvalid) (hsaw.settles_of_valid _ hvalid)
  intro hsound
  rcases (hsound hverified).2.2.1 (solanaAsked_claimed hrefs) with ⟨refs', hrefs', k, hk, hread⟩ |
    ⟨⟨refs', hrefs', honly⟩, -⟩
  · cases hrefs'.symm.trans hrefs
    exact hnone k hk (solanaReason_none_iff.2 hread)
  · cases hrefs'.symm.trans hrefs
    exact hnotonly honly

theorem unsound_base (hp : Passes js sha256 input) (hrefs : refs ∈ baseAsked input)
    (hrejected : RejectedThenSilent input .base (baseReasons js input refs)) (hsolana : SolanaConfirmed js input) :
    ¬ CoverageSound js sha256 input := by
  obtain ⟨srefs, hsrefs, hconfirms⟩ := hsolana
  have hsolana : SolanaConfirmed js input := ⟨srefs, hsrefs, hconfirms⟩
  have hvalid := hp.solana_valid_iff.2 hsolana
  have hsaw := hp.saw_solana hsrefs
  obtain ⟨hfailed, hnone, hnotonly⟩ := (hp.saw_base hrefs).lookupFailed_of_rejected hrejected
  have hverified := hp.verified (solanaAsked_claimed hsrefs) (baseAsked_claimed hrefs)
    (hsaw.settles_of_valid _ hvalid) (settles_of_lookupFailed hfailed hsaw.checked hvalid)
  intro hsound
  rcases (hsound hverified).2.2.2 (baseAsked_claimed hrefs) with ⟨refs', hrefs', k, hk, hread⟩ |
    ⟨⟨refs', hrefs', honly⟩, -⟩
  · cases hrefs'.symm.trans hrefs
    exact hnone k hk (baseReason_none_iff.2 hread)
  · cases hrefs'.symm.trans hrefs
    exact hnotonly honly

variable (js sha256 input) in
/-- **Coverage is sound exactly off one kind of input**: where no chain whose
    endpoints rejected the call and then fell silent stands beside a confirmed
    one with nothing else wrong. -/
theorem coverageSound_iff : CoverageSound js sha256 input ↔ ¬ RejectionCovered js sha256 input := by
  constructor
  · rintro hsound ⟨hp, ⟨⟨refs, hrefs, hrejected⟩, hbase⟩ | ⟨⟨refs, hrefs, hrejected⟩, hsolana⟩⟩
    · exact unsound_solana hp hrefs hrejected hbase hsound
    · exact unsound_base hp hrefs hrejected hsolana hsound
  · intro hclean hverified
    obtain ⟨hp, hchains⟩ := verified_cases hverified
    obtain ⟨hsolana, hbase⟩ := anchoredChainsVerified_claims hchains
    refine ⟨(checkInclusion_sound hp.included).2, hp.trusted, ?_, ?_⟩
    · exact fun hclaimed => covered_solana hp hclean (hsolana hclaimed)
    · exact fun hclaimed => covered_base hp hclean (hbase hclaimed)

end Views

/-! ## A laundered rejection -/

def sampleHash : List UInt8 → Digest := fun _ => ⟨List.replicate 32 0, rfl⟩

def sampleRoot : String := "00000000000000000000000000000000000000000000000000000000000000aa"

def sampleTx : String := "0x00000000000000000000000000000000000000000000000000000000000000bb"

def sampleSender : String := "0x1111111111111111111111111111111111111111"

def sampleHead : AnchorHead where
  root := sampleRoot
  tree_size := some 1
  epoch := none
  anchor_tx := none
  anchor := none
  base := some ⟨some sampleTx, some 8453, some "anchored", some sampleSender⟩
  solana := some {
    signature := some "1111111111111111111111111111111111111111111111111111111111111111"
    slot := some 7
    cluster := some "devnet"
    memo := none
    status := some "anchored"
    fee_payer := some "payer" }

def sampleBaseTx : BaseAnchorTx where
  hash := some sampleTx
  input := some ("0x" ++ sampleRoot)
  chainId := .text "0x2105"
  «from» := some sampleSender
  status := .text "0x1"
  blockNumber := .number 100
  tipBlockNumber := .number 112
  txChainId := .absent
  rpcCode := none

def thrown (message : String) : RpcError := ⟨true, "Error", message, none⟩

/-- One leaf, anchored on both chains. Base confirms; Solana answers as given. -/
def sampleInput (solanaAnswers : ℕ → SolanaAnswer) : Input where
  receipt := ⟨some "task", none, none⟩
  inclusion := {
    task_id := some "task"
    status := some "anchored"
    anchor_status := none
    error := none
    leaf_index := 0
    tree_size := 1
    live_tree_size := none
    epoch := some 1
    root := sampleRoot
    leaf := none
    row_hash := none
    proof := [] }
  head := sampleHead
  signedLeaf := some ⟨sampleRoot, 0, 1⟩
  epochRecord := none
  checkNewestAnchor := false
  rpcUrls _ := []
  rpcUrl _ := none
  envRpcUrl _ := none
  attemptsPerUrl := none
  budgetOver _ _ := false
  solanaAnswers := solanaAnswers
  baseAnswers _ := .ok (some sampleBaseTx)
  answers := {
    headTrust := ⟨true, none, false⟩
    walletDocument := none
    walletList := ⟨[sampleSender], ["payer"]⟩
    issuerPin := ⟨false, true, none⟩
    epochRecordReason := none
    epochLinkReason := fun _ => none
    newestAnchor := .ok none
    unloggedReason := none }

/-- The first endpoint rejects the call; the second one cannot be reached. -/
def rejectedThenUnreachable (k : ℕ) : SolanaAnswer where
  tx := .error (thrown (if k = 0 then "rpc_rejected" else "rpc_transport"))
  genesis := .ok ""

/-- **A rejection is laundered** by a second endpoint that is only unreachable. -/
theorem rejection_laundered : ¬ CoverageSound asciiText sampleHash (sampleInput rejectedThenUnreachable) := by
  have hp : Passes asciiText sampleHash (sampleInput rejectedThenUnreachable) := by
    constructor <;> decide +kernel
  have hasked : solanaAsked (sampleInput rejectedThenUnreachable)
      = some ("1111111111111111111111111111111111111111111111111111111111111111", "payer") := by decide +kernel
  let refs := ("1111111111111111111111111111111111111111111111111111111111111111", "payer")
  let reasons := solanaReasons asciiText (sampleInput rejectedThenUnreachable) refs
  have hran : obtained (sampleInput rejectedThenUnreachable) .solana reasons = 3
      ∧ reasons 0 = some (rpcRejected .solana) ∧ isRpcLookupFailure (reasons 2) = true := by decide +kernel
  obtain ⟨hcount, hrejected, hsilent⟩ := hran
  have hbase : (base asciiText sampleHash (sampleInput rejectedThenUnreachable)).valid = true := by decide +kernel
  refine unsound_solana hp hasked ⟨⟨0, ?_, hrejected⟩, 2, hcount.symm, hsilent⟩ (hp.base_valid_iff.1 hbase)
  exact hcount ▸ Nat.succ_pos 2

end AnchorWitness
