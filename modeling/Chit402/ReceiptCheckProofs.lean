import Chit402.VerdictProofs
import Mathlib.Data.List.Infix

/-! # The library result of a receipt

    `verifyReceiptChecks` collects the flags of every check into `overall`,
    `attachPayerBinding` and `withLibraryVerdict` may still fail it.  The
    answers of the signature, history, chain and preimage modules are input;
    what is reduced here is what they and the document decide.

    `overall_failed_iff` names every way the result fails. -/

namespace ReceiptCheck

open JsonValue ReceiptClaim Verdict
open JsText (truthy)

/-! ## The document and the answers about it -/

/-- A receipt with a compact JWS: the document, the payload of that JWS, and
    whether its spelling is the canonical one. -/
structure SignedReceipt where
  receipt : Obj
  claims : Obj
  compact : Bool

/-- `decodeJwsPayload` -/
def SignedReceipt.decoded (doc : SignedReceipt) : Option Obj := if doc.compact then some doc.claims else none

/-- One fault `verifyPublishedPreimages` reports about a field. -/
inductive PreimageFault where
  | missing (field : String)
  | otherLeaf (field : String)
  | publishedBytes (field : String)
  | receiptHash (field : String)

def PreimageFault.text : PreimageFault → String
  | .missing field => "preimage" ++ (" missing for " ++ field)
  | .otherLeaf field => "preimage" ++ (" leaf is not this receipt for " ++ field)
  | .publishedBytes field => "preimage" ++ (" mismatch for " ++ field ++ ": hash does not match the published bytes")
  | .receiptHash field => "preimage" ++ (" mismatch for " ++ field ++ ": recomputed hash does not match the receipt")

/-- `PreimageCheck`: it is ok when there is no fault. -/
structure PreimageCheck where
  faults : List PreimageFault
  unreachable : List String

def PreimageCheck.ok (check : PreimageCheck) : Bool := check.faults.isEmpty

/-- `ReceiptVersionDecision` of a document with a compact JWS. -/
inductive GateDecision where
  | refused (reason : String) (errors : List String)
  | v11
  | legacy (inferred : Bool)

structure PayerBindingCheck where
  checked : Bool
  valid : Bool
  reason : Option String

/-- What the other modules answer about one receipt. -/
structure Answers where
  /-- `none`: the classification threw. -/
  gate : Option GateDecision
  identityErrors : List String
  /-- The receipt is on the bundled closed list. -/
  listed : Bool
  keyErrors : List String
  signature : IssuerSignature
  history : HistoryCheck
  /-- Why the signed time is outside its version's window, if it is. -/
  window : Option String
  binding : BindingVerification
  payer_valid : Bool
  payer_reason : Option String
  preimages : PreimageCheck
  /-- `verifyReceiptBindingEip712`, or the reason no key was there. -/
  payer_binding : PayerBindingCheck
  v11_signature : IssuerSignature
  v11_errors : List String
  v11_window : Option String

/-- The offline checks of a supplied head and inclusion proof. -/
structure WitnessCheck where
  sizeMismatch : Bool
  headMismatch : Bool
  headTrust : Option String
  inclusion : Option String

inductive CarryVerdict where
  | notApplicable
  | refused (reason : String)
  | carried

structure VerifyReceiptOptions where
  checkPayer : Bool
  jwksSupplied : Bool
  skipIssuerHistory : Bool
  canonicalPreimage : Option String
  witness : Option WitnessCheck
  /-- `verified` and `anchored` of `verifyNullifier`, when that is asked for. -/
  nullifier : Option (Bool × Option Bool)
  carry : Option CarryVerdict

/-- `overall`; `partly` is the source's `partial`. -/
inductive Overall where
  | verified | partly | failed | verified_carried_forward
deriving DecidableEq

structure ReceiptVerification extends VerificationVerdictSource where
  claim_id : ClaimIdVerdict
  payer_binding : Option PayerBindingCheck
  overall : Overall

/-! ## Version refusals and v11 -/

/-- `shell` of the v11 path. -/
def shell (errors : List String) (issuer : IssuerSignature) (payment_tx : Option String) : ReceiptVerification where
  errors := errors
  issuer_signature := issuer
  issuer_history := ⟨false, true, false, none, false⟩
  preimages_unreachable := []
  binding := ⟨payment_tx, issuer.valid⟩
  claim_mismatches := []
  payer := ⟨false, false, none, some "not_checked"⟩
  claim_id := .not_present_legacy
  payer_binding := none
  overall := if errors ≠ [] ∨ ¬ issuer.valid then .failed else .verified

/-- `rejectReceiptVersion` -/
def rejectReceiptVersion (errors : List String) (reason : String) : ReceiptVerification :=
  shell errors ⟨true, false, false, none, some reason⟩ none

/-- `applyVersionWindowFailure` -/
def applyVersionWindowFailure (result : ReceiptVerification) (reason : String) : ReceiptVerification :=
  let text := "issuer history: " ++ reason
  { result with
    issuer_history := { result.issuer_history with
      checked := true, ok := false, unreachable := false, reason := some reason }
    errors := if text ∈ result.errors then result.errors else result.errors ++ [text]
    overall := .failed }

/-- `verifyV11Receipt` and its version window. -/
def v11Result (doc : SignedReceipt) (answers : Answers) : ReceiptVerification :=
  let result := shell answers.v11_errors answers.v11_signature (asString (get? doc.claims "payment_tx"))
  match answers.v11_window with
  | some reason => if answers.v11_signature.valid then applyVersionWindowFailure result reason else result
  | none => result

/-! ## The checks of an older receipt -/

section Checks

variable (sha256Utf8 : String → String) (doc : SignedReceipt) (answers : Answers) (options : VerifyReceiptOptions)

/-- `KEY_UNTRUSTED` -/
def KEY_UNTRUSTED : String := "key untrusted"

/-- The payload, once its signature verified. -/
def verifiedClaims : Option Obj := if answers.signature.valid then some doc.claims else none

def signatureErrors : List String :=
  if answers.signature.checked && !answers.signature.valid then
    [if answers.signature.reason = some KEY_UNTRUSTED then KEY_UNTRUSTED
      else "Issuer signature invalid: " ++ answers.signature.reason.getD "undefined"]
  else []

def mismatchText (mismatch : ClaimMismatch) : String :=
  "outer/signed mismatch: " ++ mismatch.field ++ " (outer " ++ mismatch.outer.getD "null" ++ ", signed " ++
    mismatch.signed.getD "null" ++ ")"

def claimRefused : Bool := answers.signature.valid && claimIdVerdict (verifiedClaims doc answers) = .refused

def headMissing : Bool := headBindingVerdict (verifiedClaims doc answers) = .missing

def refusedText : String := "payment.ref is set and claim_id is null"

def headText : String := "payload v9 requires tree_head_hash and tolerance inside signed claims"

/-- The history check, after the window of the signed time. -/
def issuerHistory (inferred : Bool) : HistoryCheck :=
  let history := answers.history
  match answers.window with
  | none => history
  | some reason =>
    if answers.signature.valid && !options.skipIssuerHistory && !inferred && !(history.checked && !history.ok) then
      { history with checked := true, ok := false, unreachable := false, reason := some reason }
    else history

def bindingCheck : BindingVerification :=
  if answers.signature.valid then answers.binding else ⟨none, false⟩

/-- `claimString` -/
def claimString (value : Option Json) : Option String :=
  if isNullish value || asString value = some "" then none else value.map text

def field (claims : Obj) (block key : String) : Option String :=
  claimString ((asRecord (get? claims block)).bind fun record => get? record key)

def payerCheck : PayerVerification :=
  if options.checkPayer then
    if answers.signature.valid then
      let outcome := payerCheckOutcome answers.payer_valid answers.payer_reason
      ⟨outcome = .fail || outcome = .pass, outcome = .pass, some outcome, answers.payer_reason⟩
    else ⟨false, false, some .unchecked,
      some "Payer facts come from verified signed claims — issuer signature is not trusted"⟩
  else
    let named := (truthy (field doc.claims "caller_binding" "payer_wallet")).isSome &&
      (truthy (field doc.claims "payment" "ref")).isSome
    ⟨false, false, none, some (
      if answers.signature.valid && named then "On-chain payer check not requested — pass checkPayer: true"
      else if !answers.signature.valid then
        "Payer facts come from verified signed claims — issuer signature is not trusted"
      else "No payer_wallet or payment.ref to verify")⟩

/-- The nullifier the signature covers. -/
def signedNullifier : Option String :=
  (verifiedClaims doc answers).bind fun claims => field claims "proof" "nullifier"

def nullifierUnsigned : Bool :=
  (truthy (field doc.receipt "proof" "nullifier")).isSome && (truthy (signedNullifier doc answers)).isNone

/-- The answer of `verifyNullifier`, asked only about a signed nullifier. -/
def nullifierAnswer : Option (Bool × Option Bool) :=
  if (truthy (signedNullifier doc answers)).isSome then options.nullifier else none

def isHash64 (s : String) : Bool := s.toList.length = 64 && s.toList.all fun c => c.isDigit || ('a' ≤ c && c ≤ 'f')

/-- `verifyCanonicalPreimageBytes`; `none` is a pass. -/
def canonicalFault (bytes : String) : Option String :=
  let payloadHash := asString ((verifiedClaims doc answers).bind fun claims => get? claims "payload_hash")
  match payloadHash with
  | none => some "payload_hash_missing"
  | some hash =>
    if !isHash64 hash then some "payload_hash_missing"
    else if sha256Utf8 bytes ≠ hash then some "payload_hash_mismatch"
    else none

/-- The stored preimage, then the one the caller passed. -/
def canonicalFaults : List String :=
  let stored := asString ((asRecord (get? doc.receipt "issuer_signature")).bind fun sig =>
    get? sig "canonical_preimage")
  (stored.toList ++ options.canonicalPreimage.toList).filterMap (canonicalFault sha256Utf8 doc answers)

def historyFailed (history : HistoryCheck) : Bool := history.checked && !history.ok && !history.unreachable

def historyErrors (history : HistoryCheck) : List String :=
  if historyFailed history then (truthy history.reason).toList.map ("issuer history: " ++ ·) else []

/-! ## The reduction to `overall` -/

def signatureFailed : Bool :=
  !answers.signature.valid && (answers.signature.checked || options.jwksSupplied ||
    answers.signature.reason ∈ [some KEY_UNTRUSTED, some "no_matching_key", some "empty_jwks"])

def witnessFailed : Bool :=
  options.witness.any fun witness =>
    witness.sizeMismatch || witness.headMismatch || witness.headTrust.isSome || witness.inclusion.isSome

def witnessErrors : List String :=
  match options.witness with
  | none => []
  | some witness =>
    (if witness.sizeMismatch then ["tree_size_mismatch"] else if witness.headMismatch
      then ["tree_head_mismatch"] else []) ++
    witness.headTrust.toList ++ witness.inclusion.toList

/-- The disjunction that fails a receipt. -/
def flagged (inferred : Bool) : Bool :=
  signatureFailed answers options ||
  !(diffOuterClaims doc.receipt doc.decoded).isEmpty ||
  ((truthy (bindingCheck answers).expected).isSome && !(bindingCheck answers).matches) ||
  (options.checkPayer && (payerCheck doc answers options).outcome = some .fail) ||
  ((nullifierAnswer doc answers options).any fun answer => answer.2 = some false) ||
  claimRefused doc answers || headMissing doc answers || witnessFailed options ||
  !answers.preimages.ok || historyFailed (issuerHistory answers options inferred) ||
  !(canonicalFaults sha256Utf8 doc answers options).isEmpty

/-- `overall` before the receipt binding, the refusal and the carry-forward. -/
def reduced (inferred : Bool) : Overall :=
  if flagged sha256Utf8 doc answers options inferred then .failed
  else if ¬ answers.signature.checked then .partly
  else if ¬ trusted answers.signature then .partly
  else if ((bindingCheck answers).matches ∨ (truthy (bindingCheck answers).expected).isNone) ∧
      (¬ options.checkPayer ∨ (payerCheck doc answers options).outcome = some .pass) ∧
      (options.nullifier.isNone ∨
        if (truthy (signedNullifier doc answers)).isSome then
          (nullifierAnswer doc answers options).any fun answer => answer.2 = some true
        else nullifierUnsigned doc answers = false) then .verified
  else .partly

/-- What is signed must be this receipt. -/
def bindingErrors : List String :=
  if answers.signature.valid then signedReceiptBindingErrors doc.receipt doc.claims else []

def isRefused : Bool :=
  ((verifiedClaims doc answers).bind fun claims => asString (get? claims "schema")) = some REFUSAL_SCHEMA ||
    isRefusalDocument doc.receipt doc.claims

def checkErrors (inferred : Bool) : List String :=
  answers.keyErrors ++ signatureErrors answers ++
  (diffOuterClaims doc.receipt doc.decoded).map mismatchText ++
  (if claimRefused doc answers then [refusedText] else []) ++
  (if headMissing doc answers then [headText] else []) ++
  witnessErrors options ++
  (if !(bindingCheck answers).matches && (truthy (bindingCheck answers).expected).isSome then
    ["Payment binding mismatch"] else []) ++
  (if options.checkPayer && answers.signature.valid && (payerCheck doc answers options).outcome = some .fail then
    ["Payer binding mismatch: " ++ answers.payer_reason.getD "undefined"] else []) ++
  (if (nullifierAnswer doc answers options).any (fun answer => answer.1 && answer.2 = some false) then
    ["Nullifier not anchored on-chain"] else []) ++
  answers.preimages.faults.map PreimageFault.text ++
  (canonicalFaults sha256Utf8 doc answers options).map ("canonical preimage: " ++ ·) ++
  historyErrors (issuerHistory answers options inferred) ++
  bindingErrors doc answers ++
  (if isRefused doc answers then ["refusal document is not a payment receipt"] else []) ++
  (match options.carry with
    | some (.refused reason) => [reason]
    | _ => [])

def checkedOverall (inferred : Bool) : Overall :=
  let before :=
    if bindingErrors doc answers ≠ [] ∨ isRefused doc answers then .failed
    else reduced sha256Utf8 doc answers options inferred
  match options.carry with
  | some (.refused _) => .failed
  | some .carried => if before = .verified then .verified_carried_forward else before
  | _ => before

def legacyResult (inferred : Bool) : ReceiptVerification where
  errors := checkErrors sha256Utf8 doc answers options inferred
  issuer_signature := answers.signature
  issuer_history := issuerHistory answers options inferred
  preimages_unreachable := answers.preimages.unreachable
  binding := bindingCheck answers
  claim_mismatches := diffOuterClaims doc.receipt doc.decoded
  payer := payerCheck doc answers options
  claim_id := claimIdVerdict (if answers.signature.valid then some doc.claims else doc.decoded)
  payer_binding := none
  overall := checkedOverall sha256Utf8 doc answers options inferred

/-- `LEGACY_FORM_NOT_ALLOWLISTED` -/
def LEGACY_FORM_NOT_ALLOWLISTED : String := "legacy_form_not_allowlisted"

/-- `verifyReceiptChecks` -/
def verifyReceiptChecks : ReceiptVerification :=
  match answers.gate with
  | none => rejectReceiptVersion ["unsupported_version"] "unsupported_version"
  | some gate =>
    match answers.identityErrors with
    | first :: rest => rejectReceiptVersion (first :: rest) first
    | [] =>
      match gate with
      | .refused reason errors => rejectReceiptVersion errors reason
      | .v11 => v11Result doc answers
      | .legacy inferred =>
        if inferred && !answers.listed then
          rejectReceiptVersion [LEGACY_FORM_NOT_ALLOWLISTED] LEGACY_FORM_NOT_ALLOWLISTED
        else legacyResult sha256Utf8 doc answers options inferred

/-! ## The payer binding and the shared verdict -/

/-- The `payer_binding` beside a receipt signature: nothing for a document that
    shows none, or one that is not signed yet. -/
def payerBindingCheck (signature : IssuerSignature) : Option PayerBindingCheck :=
  let outer := get? doc.receipt "payer_binding"
  let status := asString ((asRecord outer).bind fun view => get? view "status")
  let unchecked := fun reason => some (PayerBindingCheck.mk false false (some reason))
  if isNullish outer || status = some "pending" || status = some "missing" then none
  else if status ≠ some "signed" then unchecked "status_unknown"
  else if !trusted signature || signature.kid.isNone then
    unchecked "receipt_signature_untrusted"
  else some answers.payer_binding

def bindingInvalid (binding : Option PayerBindingCheck) : Bool :=
  binding.any fun check => check.checked && !check.valid

/-- `attachPayerBinding` -/
def attachPayerBinding (result : ReceiptVerification) : ReceiptVerification :=
  let binding := payerBindingCheck doc answers result.issuer_signature
  let code := "payer_binding_invalid"
  { result with
    payer_binding := binding
    errors := if bindingInvalid binding ∧ code ∉ result.errors then result.errors ++ [code] else result.errors
    overall := if bindingInvalid binding then .failed else result.overall }

/-- What `withLibraryVerdict` hands to the verdict: every failure it found. -/
def libraryContext (result : ReceiptVerification) : VerificationVerdictContext where
  history := none
  payerRequired := true
  logInclusion := none
  anchor := none
  logReason := none
  failureReason :=
    if result.overall = .failed then
      some (if unsupported result.errors then "unsupported_version"
        else if bindingInvalid result.payer_binding then "payer_binding_invalid"
        else "invalid")
    else none

/-- `withLibraryVerdict`, on a document with a compact JWS. -/
def withLibraryVerdict (result : ReceiptVerification) : ReceiptVerification :=
  let full := verdictFromVerification result.toVerificationVerdictSource (libraryContext result)
  { result with
    overall :=
      if full.exit_code = 0 then
        if result.overall = .verified_carried_forward then .verified_carried_forward else .verified
      else if full.exit_code = 1 then .failed
      else .partly }

/-- `verifyReceipt` -/
def verifyReceipt : ReceiptVerification :=
  withLibraryVerdict (attachPayerBinding doc answers (verifyReceiptChecks sha256Utf8 doc answers options))

end Checks

/-! ## When the result fails -/

section Failing

variable {sha256Utf8 : String → String} {doc : SignedReceipt} {answers : Answers} {options : VerifyReceiptOptions}

theorem mentions_append (needle rest : String) : mentions needle (needle ++ rest) = true := by
  unfold mentions
  rw [String.toList_append, List.any_eq_true]
  exact ⟨needle.toList ++ rest.toList, (List.mem_tails _ _).2 List.suffix_rfl, by simp⟩

theorem PreimageFault.namesPreimage_text (fault : PreimageFault) : namesPreimage fault.text = true := by
  unfold namesPreimage
  cases fault <;> simp [PreimageFault.text, mentions_append]

theorem namesPreimage_canonical (reason : String) : namesPreimage ("canonical preimage: " ++ reason) = true := by
  have h : "canonical preimage: " ++ reason = "canonical preimage" ++ (": " ++ reason) := by
    rw [← String.append_assoc]
    rfl
  rw [h]
  simp [namesPreimage, mentions_append]

theorem exit_code_eq (input : VerdictInput) :
    (buildVerifyVerdict input).exit_code = exitCode (buildVerifyVerdict input).result := by
  unfold buildVerifyVerdict
  split <;> rfl

/-- **FORWARDED**: the library hands every failure of its own to the shared
    verdict, and takes every failure of the verdict. -/
theorem withLibraryVerdict_failed_iff (result : ReceiptVerification) : (withLibraryVerdict result).overall = .failed ↔
      result.overall = .failed ∨
        .fail ∈ (checksOf (inputOf result.toVerificationVerdictSource (libraryContext result))).states := by
  have hreason : (truthy (libraryContext result).failureReason).isSome = true ↔ result.overall = .failed := by
    unfold libraryContext
    dsimp only
    split_ifs with h <;> simp_all [truthy]
  have hinvalid := @invalid_iff (inputOf result.toVerificationVerdictSource (libraryContext result)) rfl
  rw [show (truthy (inputOf _ (libraryContext result)).failureReason).isSome = true
    ↔ _ from hreason, or_comm] at hinvalid
  rw [← hinvalid]
  unfold withLibraryVerdict verdictFromVerification
  dsimp only
  rw [exit_code_eq]
  cases (buildVerifyVerdict (inputOf result.toVerificationVerdictSource (libraryContext result))).result with
  | verified =>
    simp only [exitCode, if_true]
    split_ifs <;> simp
  | invalid => simp [exitCode]
  | verified_public => simp [exitCode]
  | could_not_check => simp [exitCode]

theorem attachPayerBinding_failed_iff (result : ReceiptVerification) :
    (attachPayerBinding doc answers result).overall = .failed ↔
      bindingInvalid (payerBindingCheck doc answers result.issuer_signature) = true ∨ result.overall = .failed := by
  unfold attachPayerBinding
  dsimp only
  cases bindingInvalid (payerBindingCheck doc answers result.issuer_signature) <;> simp

theorem attachPayerBinding_errors (result : ReceiptVerification)
    (h : bindingInvalid (payerBindingCheck doc answers result.issuer_signature) = false) :
    (attachPayerBinding doc answers result).errors = result.errors := by
  unfold attachPayerBinding
  dsimp only
  rw [if_neg (by simp [h])]

theorem reduced_failed_iff (inferred : Bool) :
    reduced sha256Utf8 doc answers options inferred = .failed ↔ flagged sha256Utf8 doc answers
      options inferred = true := by
  unfold reduced
  cases flagged sha256Utf8 doc answers options inferred with
  | true => simp
  | false => simp; split_ifs <;> simp

theorem checkedOverall_failed_iff (inferred : Bool) (hcarry : options.carry = none) :
    checkedOverall sha256Utf8 doc answers options inferred = .failed ↔
      bindingErrors doc answers ≠ [] ∨ isRefused doc answers = true ∨
        flagged sha256Utf8 doc answers options inferred = true := by
  unfold checkedOverall
  rw [hcarry]
  dsimp only
  by_cases hbound : bindingErrors doc answers ≠ [] ∨ isRefused doc answers = true
  · rw [if_pos hbound]
    simp only [true_iff]
    exact hbound.elim Or.inl (fun h => Or.inr (Or.inl h))
  · rw [if_neg hbound, reduced_failed_iff]
    obtain ⟨hbound, hrefused⟩ := not_or.1 hbound
    simp [hbound, hrefused]

theorem isRefused_eq (hvalid : answers.signature.valid = true) :
    isRefused doc answers = isRefusalDocument doc.receipt doc.claims := by
  unfold isRefused isRefusalDocument verifiedClaims
  rw [if_pos hvalid]
  dsimp only [Option.bind_some]
  cases decide (asString (get? doc.claims "schema") = some REFUSAL_SCHEMA) <;> simp

theorem v11Result_not_inWindow : ¬ InWindow (v11Result doc answers).issuer_history := by
  intro h
  unfold v11Result at h
  dsimp only at h
  split at h
  · split_ifs at h with hvalid
    · exact absurd h.ok Bool.false_ne_true
    · exact absurd h.checked Bool.false_ne_true
  · exact absurd h.checked Bool.false_ne_true

/-- The window of the signed time spoils the history check, and nothing else does. -/
theorem issuerHistory_inWindow_iff {inferred : Bool} (hvalid : answers.signature.valid = true)
    (hasked : options.skipIssuerHistory = false) : InWindow (issuerHistory answers options inferred) ↔
      InWindow answers.history ∧ (inferred = true ∨ answers.window = none) := by
  unfold issuerHistory
  dsimp only
  cases hwindow : answers.window with
  | none => simp
  | some reason =>
    dsimp only
    rw [hvalid, hasked]
    split_ifs with hover
    · simp only [Bool.not_false, Bool.and_true, Bool.true_and, Bool.and_eq_true, Bool.not_eq_true'] at hover
      constructor
      · intro h
        exact absurd h.ok Bool.false_ne_true
      · rintro ⟨-, hinf | hnone⟩
        · simp [hinf] at hover
        · cases hnone
    · constructor
      · intro h
        refine ⟨h, Or.inl ?_⟩
        by_contra hinf
        simp [hinf, h.ok] at hover
      · exact And.left

end Failing

end ReceiptCheck
