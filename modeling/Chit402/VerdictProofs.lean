import Chit402.ReceiptClaimProofs

/-! # The one verdict of the verifier

    Six named checks and one result.  `buildVerifyVerdict` reads the flags a
    caller collected; `verdictFromVerification` fills those flags from a
    library result.  Each check has one lemma that says when it passes, and
    `verified_iff` puts them together. -/

namespace Verdict

open ReceiptClaim
open JsText (truthy)

/-! ## Texts the verdict looks for -/

/-- `text.includes(needle)`, or a test of a pattern without operators. -/
def mentions (needle text : String) : Bool := text.toList.tails.any needle.toList.isPrefixOf

def isWordChar (c : Char) : Bool := c.isAlphanum || c = '_'

/-- `new RegExp('\\b' + word + '\\b')`, with the character before the text read so far. -/
def hasWordAfter (word : List Char) (before : Option Char) (text : List Char) : Bool :=
  (word.isPrefixOf text && !before.any isWordChar && !(text.drop word.length).head?.any isWordChar) ||
    match text with
    | [] => false
    | c :: rest => hasWordAfter word (some c) rest

def hasWord (word text : String) : Bool := hasWordAfter word.toList none text.toList

/-- `/preimage|payload_hash_mismatch|canonical preimage/` -/
def namesPreimage (err : String) : Bool :=
  mentions "preimage" err || mentions "payload_hash_mismatch" err || mentions "canonical preimage" err

/-! ## The payer outcome -/

inductive PayerOutcome where
  | pass | fail | unchecked
deriving DecidableEq

/-- `/^transferred_\d+_lt_expected_\d+$/` -/
def isShortTransfer (reason : List Char) : Bool :=
  let first := "transferred_".toList
  let second := "_lt_expected_".toList
  let amount := reason.drop first.length
  let tail := amount.dropWhile Char.isDigit
  let expected := tail.drop second.length
  first.isPrefixOf reason && (amount.head?.any Char.isDigit) && second.isPrefixOf tail &&
    !expected.isEmpty && expected.all Char.isDigit

/-- `PAYER_MISMATCH`: the chain answered and disagreed. -/
def isPayerMismatch (reason : String) : Bool :=
  isShortTransfer reason.toList ||
  ["payee_mismatch:", "no_usdc_transfer_from_", "no_usdc_transfer_of_", "asset_mismatch:", "payer_mismatch:"].any
    (fun start => start.toList.isPrefixOf reason.toList) ||
  reason = "transaction_reverted" || reason = "transaction_failed"

/-- `payerCheckOutcome` -/
def payerCheckOutcome (valid : Bool) (reason : Option String) : PayerOutcome :=
  if valid then .pass
  else if isPayerMismatch (reason.getD "") then .fail
  else .unchecked

/-! ## Input and result -/

inductive CheckState where
  | pass | fail | could_not_check
deriving DecidableEq

inductive VerdictResult where
  | verified | verified_public | invalid | could_not_check
deriving DecidableEq

/-- `VerdictInput`, without the ids and history fields it only carries on. -/
structure VerdictInput where
  signatureValid : Option Bool := none
  signatureChecked : Bool := false
  historyChecked : Bool := false
  historyOk : Option Bool := none
  historyReason : Option String := none
  historyMissing : Bool := false
  historyUnreachable : Bool := false
  paymentUnreachable : Bool := false
  bindingExpected : Bool := false
  bindingMatches : Option Bool := none
  claimMismatches : ℕ := 0
  payerChecked : Bool := false
  payerValid : Option Bool := none
  payerRequired : Bool := false
  payerOutcome : Option PayerOutcome := none
  errors : List String := []
  /-- `none` is unclaimed. -/
  logInclusion : Option CheckState := none
  anchor : Option CheckState := none
  logReason : Option String := none
  absentReason : Option String := none
  failureReason : Option String := none

structure Checks where
  signature : CheckState
  key_window : CheckState
  payment_binding : CheckState
  log_inclusion : CheckState
  anchor : CheckState
  shape : CheckState
deriving DecidableEq

structure VerifyVerdict where
  result : VerdictResult
  exit_code : ℕ
  reason : Option String
  checks : Checks
deriving DecidableEq

/-- `VERSION_WINDOW_FAIL` -/
def VERSION_WINDOW_FAIL : List String :=
  ["version_window_closed", "version_window_not_open", "version_window_missing", "log_time_after_window"]

/-- `WINDOW_FAIL` -/
def WINDOW_FAIL : List String :=
  ["kid_ambiguous", "kid_revoked_before_issuance", "issued_before_not_before", "issued_after_not_after",
    "issued_at_missing", "not_before_missing", "not_after_invalid", "revoked_at_missing", "kid_status_regression",
    "issuer_history_invalid", "issuer_history_pin_mismatch", "issuer_history_pin_missing",
    "issuer_history_version_mismatch", "issuer_history_seq_mismatch", "signature_invalid", "typ_mismatch",
    "key untrusted", "prev_hash_mismatch", "entry_hash_mismatch", "head_hash_mismatch", "introduced_key_signature",
    "inherited_key_window", "issuer_history_not_extension", "extension_adds_key", "extension_changes_key",
    "extension_adds_contract", "extension_unknown_field", "extension_not_narrowing",
    "issuer_history_signer_inactive"] ++ VERSION_WINDOW_FAIL

/-! ## The six checks -/

def isShapeError (err : String) : Bool :=
  err ∈ ["id_prefix_version_mismatch", "intent_on_legacy_version", "legacy_form_not_allowlisted"]

/-- An error that fails the shape of a version this verifier supports. -/
def isIdError (err : String) : Bool :=
  err ∈ ["version_mismatch", "payload_version_mismatch", "id_mismatch", "task_id_mismatch", "receipt_id_mismatch"]

def unsupported (errors : List String) : Bool := "unsupported_version" ∈ errors

def shapeCheck (errors : List String) : CheckState :=
  if errors.any isShapeError then .fail
  else if unsupported errors then .could_not_check
  else if errors.any isIdError then .fail
  else .pass

def signatureCheck (input : VerdictInput) : CheckState :=
  if unsupported input.errors then .could_not_check
  else if input.signatureChecked ∧ input.signatureValid = some true then .pass
  else if input.signatureChecked ∧ input.signatureValid = some false then .fail
  else if input.signatureValid = some true then .pass
  else .could_not_check

/-- A version window that refuses does so without the history document. -/
def keyWindowCheck (input : VerdictInput) : CheckState :=
  let reason := truthy input.historyReason
  if input.historyChecked ∧ reason.any (· ∈ VERSION_WINDOW_FAIL) ∧ ¬ input.historyUnreachable then .fail
  else if input.historyMissing ∨ reason = some "kid_not_in_history" ∨ input.historyUnreachable then .could_not_check
  else if input.historyChecked ∧ input.historyOk = some true then .pass
  else if input.historyChecked ∧ reason.any (· ∈ WINDOW_FAIL) then .fail
  else if input.historyChecked ∧ input.historyOk = some false then .fail
  else .could_not_check

/-- A pass needs a signature that passed. -/
def paymentCheck (input : VerdictInput) : CheckState :=
  if signatureCheck input ≠ .pass then .could_not_check
  else if 0 < input.claimMismatches ∨ (input.bindingExpected ∧ input.bindingMatches = some false) ∨
      input.errors.any namesPreimage then .fail
  else if input.payerRequired ∧ input.payerOutcome = some .fail then .fail
  else if input.payerRequired ∧ input.payerOutcome ≠ some .pass then .could_not_check
  else if ¬ input.payerRequired ∧ input.payerChecked ∧ input.payerValid = some false then .fail
  else if input.bindingExpected ∧ input.bindingMatches ≠ some true ∧ ¬ unsupported input.errors then .could_not_check
  else if input.paymentUnreachable then .could_not_check
  else .pass

/-- `claimed` -/
def claimed (state : Option CheckState) : CheckState := state.getD .could_not_check

/-! ## Reasons -/

/-- `failReason`, for checks of which one failed. -/
def failReason (checks : Checks) (input : VerdictInput) : String :=
  if checks.shape = .fail then
    if "legacy_form_not_allowlisted" ∈ input.errors then "legacy_form_not_allowlisted"
    else if "id_prefix_version_mismatch" ∈ input.errors then "id_prefix_version_mismatch"
    else if "intent_on_legacy_version" ∈ input.errors then "intent_on_legacy_version"
    else if "version_mismatch" ∈ input.errors ∨ "payload_version_mismatch" ∈ input.errors then "version_mismatch"
    else "id_mismatch"
  else if checks.signature = .fail then
    if input.errors.any (hasWord "typ_mismatch") then "typ_mismatch"
    else if "key untrusted" ∈ input.errors then "key untrusted"
    else "signature_invalid"
  else if checks.key_window = .fail then (truthy input.historyReason).getD "key_window"
  else if checks.payment_binding = .fail then
    if 0 < input.claimMismatches then "claim_mismatch" else "payment_mismatch"
  else if checks.log_inclusion = .fail then (truthy input.logReason).getD "log_inclusion"
  else if checks.anchor = .fail then (truthy input.logReason).getD "anchor"
  else "invalid"

/-- `uncheckedReason`, for checks of which one could not be made. -/
def uncheckedReason (checks : Checks) (input : VerdictInput) : String :=
  if checks.shape = .could_not_check ∨ unsupported input.errors then "unsupported_version"
  else if checks.key_window = .could_not_check then (truthy input.historyReason).getD "kid_not_in_history"
  else if checks.signature = .could_not_check then "signature_unchecked"
  else if checks.log_inclusion = .could_not_check ∨ checks.anchor = .could_not_check then
    (truthy input.logReason).getD "log_unreachable"
  else if checks.payment_binding = .could_not_check then "payer_unchecked"
  else "could_not_check"

/-! ## The verdict -/

def Checks.states (checks : Checks) : List CheckState :=
  [checks.signature, checks.key_window, checks.payment_binding, checks.log_inclusion, checks.anchor, checks.shape]

def exitCode : VerdictResult → ℕ
  | .verified => 0
  | .invalid => 1
  | _ => 2

/-- `absentReceiptVerdict` -/
def absentReceiptVerdict (reason : String) : VerifyVerdict :=
  let could := CheckState.could_not_check
  ⟨.could_not_check, 2, some reason, ⟨could, could, could, could, could, could⟩⟩

def checksOf (input : VerdictInput) : Checks where
  signature := signatureCheck input
  key_window := keyWindowCheck input
  payment_binding := paymentCheck input
  log_inclusion := claimed input.logInclusion
  anchor := claimed input.anchor
  shape := shapeCheck input.errors

/-- The result and its reason, from the checks. -/
def conclude (input : VerdictInput) (checks : Checks) : VerdictResult × Option String :=
  if .fail ∈ checks.states then (.invalid, some (failReason checks input))
  else match truthy input.failureReason with
    | some reason => (.invalid, some reason)
    | none =>
      if .could_not_check ∈ checks.states then (.could_not_check, some (uncheckedReason checks input))
      else (.verified, none)

/-- `buildVerifyVerdict` -/
def buildVerifyVerdict (input : VerdictInput) : VerifyVerdict :=
  match truthy input.absentReason with
  | some reason => absentReceiptVerdict reason
  | none =>
    let checks := checksOf input
    let (result, reason) := conclude input checks
    ⟨result, exitCode result, reason, checks⟩

/-! ## From a library result -/

/-- `IssuerSignatureVerification`.  Its payload, when valid, is the one the
    compact JWS carries. -/
structure IssuerSignature where
  checked : Bool
  valid : Bool
  key_trusted : Bool
  kid : Option String
  reason : Option String

/-- `IssuerHistoryCheck`; `document` says whether one was loaded. -/
structure HistoryCheck where
  checked : Bool
  ok : Bool
  unreachable : Bool
  reason : Option String
  document : Bool

structure BindingVerification where
  expected : Option String
  «matches» : Bool

structure PayerVerification where
  checked : Bool
  valid : Bool
  outcome : Option PayerOutcome
  reason : Option String

/-- The parts of a library result the verdict reads. -/
structure VerificationVerdictSource where
  errors : List String
  issuer_signature : IssuerSignature
  issuer_history : HistoryCheck
  /-- `preimages.unreachable` -/
  preimages_unreachable : List String
  binding : BindingVerification
  claim_mismatches : List ClaimMismatch
  payer : PayerVerification

structure ResolvedHistory where
  invalid : Bool
  reason : Option String
  documentPresent : Bool

structure VerificationVerdictContext where
  history : Option ResolvedHistory
  payerRequired : Bool
  logInclusion : Option CheckState
  anchor : Option CheckState
  logReason : Option String
  failureReason : Option String

/-- The history a verdict goes by: the caller's, or what the result loaded. -/
def historyOf (result : VerificationVerdictSource) (ctx : VerificationVerdictContext) : ResolvedHistory :=
  ctx.history.getD ⟨false, none, result.issuer_history.document⟩

def trusted (signature : IssuerSignature) : Bool := signature.valid && signature.key_trusted

/-- `verdictInput` of `verdictFromVerification` -/
def inputOf (result : VerificationVerdictSource) (ctx : VerificationVerdictContext) : VerdictInput :=
  let unsupported := unsupported result.errors
  let history := historyOf result ctx
  let checked := result.issuer_history
  { signatureValid := if unsupported then none else some (trusted result.issuer_signature)
    signatureChecked := !unsupported && result.issuer_signature.checked
    historyChecked := !unsupported && (history.invalid || checked.checked)
    historyOk := some (!unsupported && !history.invalid && checked.ok)
    historyReason := if history.invalid then truthy history.reason <|> checked.reason else checked.reason
    historyMissing := unsupported || (!history.documentPresent && !history.invalid)
    historyUnreachable := !history.invalid && checked.unreachable
    paymentUnreachable := !result.preimages_unreachable.isEmpty
    bindingExpected := (truthy result.binding.expected).isSome
    bindingMatches := some result.binding.matches
    claimMismatches := result.claim_mismatches.length
    payerChecked := result.payer.checked
    payerValid := some result.payer.valid
    payerRequired := ctx.payerRequired
    payerOutcome :=
      if ctx.payerRequired then
        some (result.payer.outcome.getD (payerCheckOutcome result.payer.valid result.payer.reason))
      else none
    errors := result.errors
    logInclusion := ctx.logInclusion
    anchor := ctx.anchor
    logReason := ctx.logReason
    failureReason := ctx.failureReason }

/-- `verdictFromVerification` -/
def verdictFromVerification (result : VerificationVerdictSource) (ctx : VerificationVerdictContext) : VerifyVerdict :=
  buildVerifyVerdict (inputOf result ctx)

/-! ## When a verdict is verified, and when it is invalid -/

variable {input : VerdictInput}

theorem verified_iff : (buildVerifyVerdict input).result = .verified ↔
      truthy input.absentReason = none ∧ truthy input.failureReason = none
        ∧ ∀ s ∈ (checksOf input).states, s = .pass := by
  have hstates : (.fail ∉ (checksOf input).states ∧ .could_not_check ∉ (checksOf input).states) ↔
      ∀ s ∈ (checksOf input).states, s = .pass := by
    constructor
    · rintro ⟨hfail, hcould⟩ s hs
      cases s with
      | pass => rfl
      | fail => exact absurd hs hfail
      | could_not_check => exact absurd hs hcould
    · intro hall
      exact ⟨fun h => absurd (hall _ h) (by decide), fun h => absurd (hall _ h) (by decide)⟩
  rw [← hstates]
  unfold buildVerifyVerdict
  cases truthy input.absentReason with
  | some reason => simp [absentReceiptVerdict]
  | none =>
    unfold conclude
    by_cases hfail : .fail ∈ (checksOf input).states
    · simp [hfail]
    · cases truthy input.failureReason with
      | some reason => simp [hfail]
      | none =>
        by_cases hcould : .could_not_check ∈ (checksOf input).states <;> simp [hfail, hcould]

theorem invalid_iff (habsent : input.absentReason = none) : (buildVerifyVerdict input).result = .invalid ↔
      .fail ∈ (checksOf input).states ∨ (truthy input.failureReason).isSome := by
  have hnone : truthy input.absentReason = none := by rw [habsent]; rfl
  unfold buildVerifyVerdict
  rw [hnone]
  unfold conclude
  by_cases hfail : .fail ∈ (checksOf input).states
  · simp [hfail]
  · cases truthy input.failureReason with
    | some reason => simp [hfail]
    | none =>
      by_cases hcould : .could_not_check ∈ (checksOf input).states <;> simp [hfail, hcould]

/-- An error no check reads. -/
def isQuiet (err : String) : Bool :=
  !isShapeError err && err ≠ "unsupported_version" && !isIdError err && !namesPreimage err

variable {errors : List String}

theorem shapeCheck_pass_iff : shapeCheck errors = .pass ↔
      ∀ err ∈ errors, isShapeError err = false ∧ err ≠ "unsupported_version" ∧ isIdError err = false := by
  unfold shapeCheck unsupported
  split_ifs with hshape hunsupported hid
  · simp only [List.any_eq_true] at hshape
    obtain ⟨err, hmem, herr⟩ := hshape
    simp only [false_iff]
    intro hall
    simp [(hall err hmem).1] at herr
  · simp only [decide_eq_true_eq] at hunsupported
    simp only [false_iff]
    intro hall
    exact (hall _ hunsupported).2.1 rfl
  · simp only [List.any_eq_true] at hid
    obtain ⟨err, hmem, herr⟩ := hid
    simp only [false_iff]
    intro hall
    simp [(hall err hmem).2.2] at herr
  · simp only [List.any_eq_true, not_exists, not_and, Bool.not_eq_true] at hshape hid
    simp only [decide_eq_true_eq] at hunsupported
    simp only [true_iff]
    intro err hmem
    exact ⟨hshape err hmem, fun h => hunsupported (h ▸ hmem), hid err hmem⟩

/-- Quiet errors leave the shape and the preimages alone, and no others do. -/
theorem quiet_iff :
    (∀ err ∈ errors, isQuiet err = true) ↔ shapeCheck errors = .pass ∧ errors.any namesPreimage = false := by
  rw [shapeCheck_pass_iff, List.any_eq_false]
  constructor
  · intro hall
    constructor
    · intro err hmem
      have := hall err hmem
      simp only [isQuiet, Bool.and_eq_true, Bool.not_eq_true', decide_eq_true_eq] at this
      exact ⟨this.1.1.1, this.1.1.2, this.1.2⟩
    · intro err hmem
      have := hall err hmem
      simp only [isQuiet, Bool.and_eq_true, Bool.not_eq_true'] at this
      simp [this.2]
  · rintro ⟨hshape, hpre⟩ err hmem
    obtain ⟨h1, h2, h3⟩ := hshape err hmem
    simp [isQuiet, h1, h2, h3, hpre err hmem]

theorem supported_of_quiet (h : ∀ err ∈ errors, isQuiet err = true) : unsupported errors = false := by
  rw [quiet_iff, shapeCheck_pass_iff] at h
  unfold unsupported
  rw [decide_eq_false_iff_not]
  intro hmem
  exact (h.1 _ hmem).2.1 rfl

variable {result : VerificationVerdictSource} {ctx : VerificationVerdictContext}

def payerOutcome (payer : PayerVerification) : PayerOutcome :=
  payer.outcome.getD (payerCheckOutcome payer.valid payer.reason)

/-- The history check says the key was in its window. -/
structure InWindow (history : HistoryCheck) : Prop where
  checked : history.checked = true
  ok : history.ok = true
  reachable : history.unreachable = false
  covered : history.reason ≠ some "kid_not_in_history"
  window : (truthy history.reason).any (· ∈ VERSION_WINDOW_FAIL) = false

/-- Everything a verified result went by. -/
structure Passes (result : VerificationVerdictSource) (ctx : VerificationVerdictContext) : Prop where
  failure : truthy ctx.failureReason = none
  quiet : ∀ err ∈ result.errors, isQuiet err = true
  signature : trusted result.issuer_signature = true
  valid : (historyOf result ctx).invalid = false
  present : (historyOf result ctx).documentPresent = true
  window : InWindow result.issuer_history
  claims : result.claim_mismatches = []
  binding : (truthy result.binding.expected).isSome = true → result.binding.matches = true
  payer : if ctx.payerRequired then payerOutcome result.payer = .pass
    else result.payer.checked = true → result.payer.valid = true
  preimages : result.preimages_unreachable = []
  log : ctx.logInclusion = some .pass
  anchor : ctx.anchor = some .pass

theorem truthy_ne {text : Option String} {s : String} (hs : s ≠ "") : truthy text = some s ↔ text = some s := by
  unfold truthy
  constructor
  · intro h
    exact (Option.filter_eq_some_iff.1 h).1
  · rintro rfl
    simp [hs]

theorem signatureCheck_pass_iff : signatureCheck (inputOf result ctx) = .pass ↔
      unsupported result.errors = false ∧ trusted result.issuer_signature = true := by
  unfold signatureCheck
  rw [show (inputOf result ctx).errors = result.errors from rfl]
  cases hun : unsupported result.errors with
  | true => simp
  | false =>
    cases ht : trusted result.issuer_signature <;> cases hc : result.issuer_signature.checked <;>
      simp [inputOf, hun, ht, hc]

/-- The window passes on a checked history that accepts, for no window reason. -/
theorem keyWindowCheck_pass_iff : keyWindowCheck input = .pass ↔
      input.historyChecked = true ∧ input.historyOk = some true ∧ input.historyMissing = false ∧
        input.historyUnreachable = false ∧ truthy input.historyReason ≠ some "kid_not_in_history" ∧
        (truthy input.historyReason).any (· ∈ VERSION_WINDOW_FAIL) = false := by
  unfold keyWindowCheck
  dsimp only
  constructor
  · intro h
    split_ifs at h with hversion hcould hpass
    obtain ⟨hchecked, hok⟩ := hpass
    simp only [not_or, Bool.not_eq_true] at hcould
    obtain ⟨hmissing, hkid, hreach⟩ := hcould
    refine ⟨hchecked, hok, hmissing, hreach, hkid, ?_⟩
    by_contra hany
    exact hversion ⟨hchecked, by simpa using hany, by simp [hreach]⟩
  · rintro ⟨hchecked, hok, hmissing, hreach, hkid, hany⟩
    rw [if_neg (by simp [hany]), if_neg (by simp [hmissing, hkid, hreach]), if_pos ⟨hchecked, hok⟩]

/-- A payment passes on a signature that did, with nothing against it. -/
theorem paymentCheck_pass_iff : paymentCheck input = .pass ↔ signatureCheck input = .pass ∧ input.claimMismatches = 0 ∧
        (input.bindingExpected = true → input.bindingMatches ≠ some false) ∧
        (input.bindingExpected = true → unsupported input.errors = false → input.bindingMatches = some true) ∧
        input.errors.any namesPreimage = false ∧ (input.payerRequired = true → input.payerOutcome = some .pass) ∧
        (input.payerRequired = false → input.payerChecked = true → input.payerValid ≠ some false) ∧
        input.paymentUnreachable = false := by
  unfold paymentCheck
  constructor
  · intro h
    split_ifs at h with hsig hfault hfail hunpaid hwrong hbind hreach
    simp only [not_or, not_lt, Nat.le_zero, not_and, Bool.not_eq_true] at hfault
    obtain ⟨hclaims, hbinding, hpre⟩ := hfault
    refine ⟨not_not.1 hsig, hclaims, hbinding, ?_, hpre, ?_, ?_, by simpa using hreach⟩
    · intro hexp hun
      by_contra hne
      exact hbind ⟨hexp, hne, by simp [hun]⟩
    · intro hreq
      by_contra hne
      exact hunpaid ⟨hreq, hne⟩
    · intro hreq hchecked hbad
      exact hwrong ⟨by simp [hreq], hchecked, hbad⟩
  · rintro ⟨hsig, hclaims, hbinding, hbound, hpre, hpaid, hvalid, hreach⟩
    rw [if_neg (by simp [hsig]), if_neg, if_neg, if_neg, if_neg, if_neg, if_neg (by simp [hreach])]
    · rintro ⟨hexp, hne, hun⟩
      exact hne (hbound hexp (by simpa using hun))
    · rintro ⟨hreq, hchecked, hbad⟩
      exact hvalid (by simpa using hreq) hchecked hbad
    · rintro ⟨hreq, hne⟩
      exact hne (hpaid hreq)
    · rintro ⟨hreq, hfail⟩
      rw [hpaid hreq] at hfail
      cases hfail
    · rintro (hpos | ⟨hexp, hbad⟩ | hbad)
      · omega
      · exact hbinding hexp hbad
      · simp [hpre] at hbad

theorem claimed_pass {state : Option CheckState} (h : claimed state = .pass) : state = some .pass := by
  cases state with
  | none => exact absurd h (by decide)
  | some s => exact congrArg some h

/-- **VERIFIED**, read back to the library result and its context. -/
theorem verdictFromVerification_verified_iff :
    (verdictFromVerification result ctx).result = .verified ↔ Passes result ctx := by
  unfold verdictFromVerification
  rw [verified_iff]
  simp only [Checks.states, checksOf, List.mem_cons, List.not_mem_nil, or_false, forall_eq_or_imp, forall_eq]
  rw [signatureCheck_pass_iff, keyWindowCheck_pass_iff, paymentCheck_pass_iff, signatureCheck_pass_iff]
  have hkid : truthy result.issuer_history.reason = some "kid_not_in_history" ↔
      result.issuer_history.reason = some "kid_not_in_history" := truthy_ne (by decide)
  constructor
  · rintro ⟨-, hfailure, ⟨hsup, hsig⟩, ⟨hchecked, hok, hmissing, hreach, hcovered, hany⟩, hpay, hlog, hanchor, hshape⟩
    obtain ⟨-, hclaims, hbinding, hbound, hpre, hpaid, hvalid, hfetched⟩ := hpay
    have hinv : (historyOf result ctx).invalid = false ∧ result.issuer_history.ok = true := by
      simpa [inputOf, hsup] using hok
    simp only [inputOf, hsup, hinv.1, Bool.not_false, Bool.true_and, Bool.false_or, Bool.and_true,
      Bool.not_eq_false', Bool.false_eq_true, if_false] at hchecked hmissing hreach hcovered hany
    refine ⟨hfailure, quiet_iff.2 ⟨hshape, hpre⟩, hsig, hinv.1, hmissing, ?_, List.length_eq_zero_iff.1 hclaims, ?_, ?_,
      ?_, claimed_pass hlog, claimed_pass hanchor⟩
    · exact ⟨hchecked, hinv.2, hreach, fun h => hcovered (hkid.2 h), hany⟩
    · intro hexp
      exact Option.some.inj (hbound hexp hsup)
    · split_ifs with hreq
      · have := hpaid hreq
        simp only [inputOf, hreq, if_true] at this
        exact Option.some.inj this
      · intro hpayer
        have hreq' : (inputOf result ctx).payerRequired = false := Bool.eq_false_iff.2 hreq
        simpa [inputOf] using hvalid hreq' hpayer
    · simpa [inputOf] using hfetched
  · intro h
    have hsup := supported_of_quiet h.quiet
    obtain ⟨hshape, hpre⟩ := quiet_iff.1 h.quiet
    refine ⟨rfl, h.failure, ⟨hsup, h.signature⟩, ?_, ?_, ?_, ?_, hshape⟩
    · simp only [inputOf, hsup, h.valid, h.present, Bool.not_false, Bool.true_and, Bool.false_or, Bool.and_true,
        Bool.not_true, Bool.false_eq_true, if_false]
      exact ⟨h.window.checked, by rw [h.window.ok], trivial, h.window.reachable,
        fun hk => h.window.covered (hkid.1 hk), h.window.window⟩
    · refine ⟨⟨hsup, h.signature⟩, by simp [inputOf, h.claims], ?_, ?_, hpre, ?_, ?_, by simp [inputOf, h.preimages]⟩
      · intro hexp
        simp [inputOf, h.binding hexp]
      · intro hexp _
        simp [inputOf, h.binding hexp]
      · intro hreq
        have hpayer := h.payer
        rw [if_pos (show ctx.payerRequired = true from hreq)] at hpayer
        have hreq' : ctx.payerRequired = true := hreq
        simp only [inputOf, hreq', if_true]
        exact congrArg some hpayer
      · intro hreq hchecked
        have hpayer := h.payer
        rw [if_neg (by simpa [inputOf] using hreq)] at hpayer
        simp [inputOf, hpayer hchecked]
    · simp [inputOf, h.log, claimed]
    · simp [inputOf, h.anchor, claimed]

theorem paymentCheck_ne_fail (hclaims : input.claimMismatches = 0)
    (hbinding : input.bindingExpected = true → input.bindingMatches ≠ some false)
    (hpre : input.errors.any namesPreimage = false) (hreq : input.payerRequired = true)
    (hpaid : input.payerOutcome ≠ some .fail) : paymentCheck input ≠ .fail := by
  unfold paymentCheck
  split_ifs with hsig hfault hfail hunpaid hwrong <;> try exact CheckState.noConfusion
  · rcases hfault with hpos | ⟨hexp, hbad⟩ | hbad
    · omega
    · exact absurd hbad (hbinding hexp)
    · simp [hpre] at hbad
  · exact absurd hfail.2 hpaid
  · exact absurd hreq hwrong.1

/-- What passed under one context does not fail the library's own verdict,
    when its payer check did not. -/
theorem Passes.library_checks {library : VerificationVerdictContext} (h : Passes result ctx)
    (hhistory : library.history = none) (hlog : library.logInclusion = none) (hanchor : library.anchor = none)
    (hreq : library.payerRequired = true) (hpayer : payerOutcome result.payer ≠ .fail) :
    .fail ∉ (checksOf (inputOf result library)).states := by
  have hsup := supported_of_quiet h.quiet
  obtain ⟨hshape, hpre⟩ := quiet_iff.1 h.quiet
  have hsig : signatureCheck (inputOf result library) = .pass := signatureCheck_pass_iff.2 ⟨hsup, h.signature⟩
  have hhist : historyOf result library = ⟨false, none, result.issuer_history.document⟩ := by
    rw [historyOf, hhistory]
    rfl
  have hwindow : keyWindowCheck (inputOf result library) ≠ .fail := by
    unfold keyWindowCheck
    simp only [inputOf, hsup, hhist]
    rw [if_neg (by simp [h.window.window])]
    split_ifs <;> simp_all [h.window.checked, h.window.ok]
  have hpay : paymentCheck (inputOf result library) ≠ .fail := by
    refine paymentCheck_ne_fail (by simp [inputOf, h.claims]) ?_ hpre hreq ?_
    · intro hexp
      simp [inputOf, h.binding hexp]
    · simp only [inputOf, hreq, if_true]
      exact fun hfail => hpayer (Option.some.inj hfail)
  have hshape' : shapeCheck (inputOf result library).errors = .pass := hshape
  have hclaimed : claimed (inputOf result library).logInclusion = .could_not_check ∧
      claimed (inputOf result library).anchor = .could_not_check := by
    simp [inputOf, hlog, hanchor, claimed]
  simp only [Checks.states, checksOf, hsig, hshape', hclaimed.1, hclaimed.2]
  simp [hwindow.symm, hpay.symm]

end Verdict
