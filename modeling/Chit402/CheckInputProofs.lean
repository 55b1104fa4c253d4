import Chit402.ReceiptCheckProofs

/-! # The CLI verdict beside the library result

    `checkReceiptInput` runs the library on a signed receipt, reads the log,
    and asks the shared verdict once more.  The library hands the verdict
    every failure it found; the CLI hands it two. -/

namespace CheckInput

open JsonValue ReceiptClaim Verdict ReceiptCheck
open JsText (truthy)

/-! ## The CLI -/

structure FreshLog where
  logInclusion : CheckState
  anchor : CheckState
  logReason : Option String
  verified : Bool
  fixedHeadInvalid : Option String

/-- `RefusalVerification`, as far as its verdict reads it. -/
structure RefusalVerification where
  valid : Bool
  errors : List String

/-- What the reads of one CLI run return. -/
structure Reads extends Answers where
  resolved : ResolvedHistory
  /-- The receipt names a `verify_url` on an allowed host. -/
  logHostOk : Bool
  fresh : FreshLog
  /-- The reason of `logTimeCheck`. -/
  logTime : Option String
  refusal : RefusalVerification

/-- What was read from the input.  A document without a compact JWS, a public
    shell and an unreadable input get a verdict without the library. -/
inductive Document where
  | unsigned (verdict : VerifyVerdict)
  | signed (doc : SignedReceipt)

structure CheckReceiptOutcome where
  verdict : VerifyVerdict
  payer_binding : Option PayerBindingCheck
  /-- The `verifyReceipt` result computed on the way. -/
  library : Option ReceiptVerification

section Cli

variable (sha256Utf8 : String → String) (checkPayer : Bool) (reads : Reads) (doc : SignedReceipt)

def cliOptions : VerifyReceiptOptions := ⟨checkPayer, false, false, none, none, none, none⟩

def refusalVerdict : VerifyVerdict :=
  let history := reads.resolved
  buildVerifyVerdict
    { signatureValid := some reads.refusal.valid
      signatureChecked := true
      historyChecked := !history.invalid && history.documentPresent
      historyOk := some (!history.invalid && history.documentPresent)
      historyReason := history.reason
      historyMissing := !history.documentPresent && !history.invalid
      errors := reads.refusal.errors }

/-- The log is read for a signature that is sound so far. -/
def readsLog (result : ReceiptVerification) : Bool :=
  result.issuer_signature.valid && !reads.resolved.invalid && !unsupported result.errors &&
    result.issuer_history.ok && reads.logHostOk

def logOf (result : ReceiptVerification) : Option FreshLog :=
  if readsLog reads result then some reads.fresh else none

def historyAfterLog (result : ReceiptVerification) : HistoryCheck :=
  match (logOf reads result).filter fun fresh => fresh.logInclusion = .pass && fresh.verified, reads.logTime with
  | some _, some reason =>
    { result.issuer_history with
      checked := true, ok := false, unreachable := reason = "log_time_unavailable", reason := some reason }
  | _, _ => result.issuer_history

/-- What the CLI hands to the verdict: two failures by name. -/
def cliContext (result : ReceiptVerification) : VerificationVerdictContext where
  history := some reads.resolved
  payerRequired := checkPayer
  logInclusion := (logOf reads result).map FreshLog.logInclusion
  anchor := (logOf reads result).map FreshLog.anchor
  logReason := (logOf reads result).bind FreshLog.logReason
  failureReason :=
    if bindingInvalid result.payer_binding then some "payer_binding_invalid"
    else (truthy ((logOf reads result).bind FreshLog.fixedHeadInvalid)).map fun _ => "fixed_head_invalid"

/-- The library result with the history check the CLI goes by. -/
def cliSource (result : ReceiptVerification) : VerificationVerdictSource :=
  { result.toVerificationVerdictSource with issuer_history := historyAfterLog reads result }

/-- `checkReceiptInput` -/
def checkReceiptInput : Document → CheckReceiptOutcome
  | .unsigned verdict => ⟨verdict, none, none⟩
  | .signed doc =>
    if isRefusalDocument doc.receipt doc.claims then ⟨refusalVerdict reads, none, none⟩
    else
      let result := verifyReceipt sha256Utf8 doc reads.toAnswers (cliOptions checkPayer)
      ⟨verdictFromVerification (cliSource reads result) (cliContext checkPayer reads result),
        result.payer_binding, some result⟩

end Cli

/-! ## The comparison -/

/-- A verified CLI verdict stands beside a library result that did not fail. -/
def NoMoreGenerous (outcome : CheckReceiptOutcome) : Prop :=
  outcome.verdict.result = .verified → ∀ result ∈ outcome.library, result.overall ≠ .failed

/-- The failures the library finds beside the six checks and the CLI does not
    hand on: a refused claim id, a missing head, and a payload the signature
    has over something else than this receipt. -/
def refusedBeside (doc : SignedReceipt) : Prop :=
  claimIdVerdict (some doc.claims) = .refused ∨ headBindingVerdict (some doc.claims) = .missing ∨
    signedReceiptBindingErrors doc.receipt doc.claims ≠ []

/-- Their error texts. -/
def besideErrors (doc : SignedReceipt) : List String :=
  (if claimIdVerdict (some doc.claims) = .refused then [refusedText] else []) ++
  (if headBindingVerdict (some doc.claims) = .missing then [headText] else []) ++
  signedReceiptBindingErrors doc.receipt doc.claims

def timeInWindow (reads : Reads) (inferred : Bool) : Prop :=
  inferred = true ∨ reads.window = none

/-- Everything the six checks read is in order. -/
structure Clear (sha256Utf8 : String → String) (checkPayer : Bool) (reads : Reads) (doc : SignedReceipt) : Prop where
  receipt : isRefusalDocument doc.receipt doc.claims = false
  version : ∃ inferred, reads.gate = some (.legacy inferred) ∧ (inferred = true → reads.listed = true) ∧
    timeInWindow reads inferred
  identity : reads.identityErrors = []
  signature : trusted reads.signature = true
  history : reads.resolved.invalid = false ∧ reads.resolved.documentPresent = true ∧ InWindow reads.history
  claims : diffOuterClaims doc.receipt doc.decoded = []
  binding : (truthy reads.binding.expected).isSome = true → reads.binding.matches = true
  payer : checkPayer = true → payerCheckOutcome reads.payer_valid reads.payer_reason = .pass
  preimages : reads.preimages.ok = true ∧ reads.preimages.unreachable = []
  canonical : canonicalFaults sha256Utf8 doc reads.toAnswers (cliOptions checkPayer) = []
  payer_binding : bindingInvalid (payerBindingCheck doc reads.toAnswers reads.signature) = false
  log : reads.logHostOk = true ∧ reads.fresh.logInclusion = .pass ∧ reads.fresh.anchor = .pass ∧
    truthy reads.fresh.fixedHeadInvalid = none ∧ (reads.fresh.verified = true → reads.logTime = none)
  quiet : ∀ err ∈ reads.keyErrors ++ besideErrors doc, isQuiet err = true

/-! ## What a verified receipt went by -/

variable {inferred : Bool} {result : ReceiptVerification}

section Comparison

variable {sha256Utf8 : String → String} {checkPayer : Bool} {reads : Reads} {doc : SignedReceipt}

theorem historyAfterLog_eq (h : InWindow (historyAfterLog reads result)) :
    historyAfterLog reads result = result.issuer_history := by
  unfold historyAfterLog at h ⊢
  split at h
  · exact absurd h.ok (by simp)
  · rfl

/-- The version gate let the receipt through to the checks of a version up to 10. -/
theorem legacy_of_inWindow (hsig : trusted (verifyReceiptChecks sha256Utf8 doc reads.toAnswers
    (cliOptions checkPayer)).issuer_signature = true)
    (hwindow : InWindow (verifyReceiptChecks sha256Utf8 doc reads.toAnswers (cliOptions checkPayer)).issuer_history) :
    ∃ inferred, reads.gate = some (.legacy inferred) ∧ reads.identityErrors = [] ∧
      (inferred = true → reads.listed = true) ∧
      verifyReceiptChecks sha256Utf8 doc reads.toAnswers (cliOptions checkPayer) =
        legacyResult sha256Utf8 doc reads.toAnswers (cliOptions checkPayer) inferred := by
  have hrejected : ∀ errors reason, trusted (rejectReceiptVersion errors reason).issuer_signature ≠ true := by
    intro errors reason
    simp [rejectReceiptVersion, shell, trusted]
  unfold verifyReceiptChecks at hsig hwindow ⊢
  split at hsig
  · exact absurd hsig (hrejected _ _)
  · rename_i gate hgate
    split at hsig
    · exact absurd hsig (hrejected _ _)
    · rename_i hidentity
      rw [hgate, hidentity] at hwindow ⊢
      dsimp only at hwindow ⊢
      cases gate with
      | refused reason errors => exact absurd hsig (hrejected _ _)
      | v11 => exact absurd hwindow v11Result_not_inWindow
      | legacy inferred =>
        dsimp only at hsig ⊢
        split_ifs at hsig ⊢ with hlisted
        · exact absurd hsig (hrejected _ _)
        · refine ⟨inferred, rfl, rfl, ?_, rfl⟩
          intro hinferred
          simpa [hinferred] using hlisted

/-- The errors of a receipt with nothing against it but `refusedBeside`. -/
theorem checkErrors_eq (hvalid : reads.signature.valid = true)
    (hreceipt : isRefusalDocument doc.receipt doc.claims = false)
    (hclaims : diffOuterClaims doc.receipt doc.decoded = [])
    (hbinding : (truthy reads.binding.expected).isSome = true → reads.binding.matches = true)
    (hpayer : checkPayer = true → payerCheckOutcome reads.payer_valid reads.payer_reason = .pass)
    (hpreimages : reads.preimages.ok = true)
    (hcanonical : canonicalFaults sha256Utf8 doc reads.toAnswers (cliOptions checkPayer) = [])
    (hhistory : (issuerHistory reads.toAnswers (cliOptions checkPayer) inferred).ok = true) :
    checkErrors sha256Utf8 doc reads.toAnswers (cliOptions checkPayer) inferred = reads.keyErrors
      ++ besideErrors doc := by
  have hrefused : isRefused doc reads.toAnswers = false := by rw [isRefused_eq hvalid, hreceipt]
  have hfaults : reads.preimages.faults = [] := by simpa [PreimageCheck.ok] using hpreimages
  have hnull : nullifierAnswer doc reads.toAnswers (cliOptions checkPayer) = none := by
    simp [nullifierAnswer, cliOptions]
  have hsignature : signatureErrors reads.toAnswers = [] := by simp [signatureErrors, hvalid]
  have hwindow : historyErrors (issuerHistory reads.toAnswers (cliOptions checkPayer) inferred) = [] := by
    simp [historyErrors, historyFailed, hhistory]
  have hbound : (!(bindingCheck reads.toAnswers).matches
    && (truthy (bindingCheck reads.toAnswers).expected).isSome) = false := by
    unfold bindingCheck
    rw [if_pos hvalid]
    cases hexp : (truthy reads.binding.expected).isSome with
    | false => simp
    | true => simp [hbinding hexp]
  have hpaid : ((cliOptions checkPayer).checkPayer && reads.signature.valid &&
      (payerCheck doc reads.toAnswers (cliOptions checkPayer)).outcome = some .fail) = false := by
    cases hcheck : checkPayer with
    | false => simp [cliOptions]
    | true => simp [payerCheck, cliOptions, hvalid, hpayer hcheck]
  unfold checkErrors
  rw [hclaims, hcanonical, hfaults, hrefused, hnull, hsignature, hwindow, hbound, hpaid]
  simp [witnessErrors, cliOptions, besideErrors, claimRefused, headMissing, bindingErrors, verifiedClaims, hvalid]

/-- The library result behind a CLI verdict. -/
def resultOf (sha256Utf8 : String → String) (checkPayer : Bool) (reads : Reads) (doc : SignedReceipt) :
    ReceiptVerification :=
  verifyReceipt sha256Utf8 doc reads.toAnswers (cliOptions checkPayer)

/-- The CLI verdict on that result. -/
def verdictOf (sha256Utf8 : String → String) (checkPayer : Bool) (reads : Reads) (doc : SignedReceipt) :
    VerifyVerdict :=
  let result := resultOf sha256Utf8 checkPayer reads doc
  verdictFromVerification (cliSource reads result) (cliContext checkPayer reads result)

theorem quiet_append {left right : List String} :
    (∀ err ∈ left ++ right, isQuiet err = true) ↔ (∀ err ∈ left, isQuiet err = true)
      ∧ ∀ err ∈ right, isQuiet err = true := by
  simp only [List.mem_append, or_imp, forall_and]

theorem not_quiet {err : String} (h : namesPreimage err = true) : isQuiet err ≠ true := by simp [isQuiet, h]

/-- A quiet result has no preimage fault: each of their texts is one the verdict reads. -/
theorem preimages_of_quiet
    (h : ∀ err ∈ checkErrors sha256Utf8 doc reads.toAnswers (cliOptions checkPayer) inferred, isQuiet err = true) :
    reads.preimages.ok = true ∧ canonicalFaults sha256Utf8 doc reads.toAnswers (cliOptions checkPayer) = [] := by
  unfold checkErrors at h
  simp only [quiet_append] at h
  obtain ⟨⟨⟨⟨⟨⟨-, hfaults⟩, hcanonical⟩, -⟩, -⟩, -⟩, -⟩ := h
  constructor
  · unfold PreimageCheck.ok
    cases hlist : reads.preimages.faults with
    | nil => rfl
    | cons fault rest =>
      exact absurd (hfaults fault.text (by simp [hlist])) (not_quiet fault.namesPreimage_text)
  · cases hlist : canonicalFaults sha256Utf8 doc reads.toAnswers (cliOptions checkPayer) with
    | nil => rfl
    | cons reason rest =>
      exact absurd (hcanonical ("canonical preimage: " ++ reason) (by simp [hlist]))
        (not_quiet (namesPreimage_canonical reason))

/-- A log that passed was read, and nothing spoke against it afterwards. -/
theorem log_of_passes (h : Passes (cliSource reads result) (cliContext checkPayer reads result)) :
    bindingInvalid result.payer_binding = false ∧ reads.logHostOk = true ∧ reads.fresh.logInclusion = .pass ∧
      reads.fresh.anchor = .pass ∧ truthy reads.fresh.fixedHeadInvalid = none ∧
      (reads.fresh.verified = true → reads.logTime = none) := by
  have hread : readsLog reads result = true := by
    by_contra hno
    have hlog := h.log
    simp [cliContext, logOf, hno] at hlog
  have hlogOf : logOf reads result = some reads.fresh := by simp [logOf, hread]
  have hlog : reads.fresh.logInclusion = .pass := by simpa [cliContext, hlogOf] using h.log
  have hanchor : reads.fresh.anchor = .pass := by simpa [cliContext, hlogOf] using h.anchor
  have hhost : reads.logHostOk = true := by
    simp only [readsLog, Bool.and_eq_true] at hread
    exact hread.2
  have hfailure := h.failure
  simp only [cliContext, hlogOf] at hfailure
  have hbinding : bindingInvalid result.payer_binding = false := by
    by_contra hbad
    rw [if_pos (Bool.eq_true_of_not_eq_false hbad)] at hfailure
    exact absurd hfailure (by decide)
  have hfixed : truthy reads.fresh.fixedHeadInvalid = none := by
    cases hfix : truthy reads.fresh.fixedHeadInvalid with
    | none => rfl
    | some reason =>
      rw [if_neg (by simp [hbinding]), Option.bind_some, hfix] at hfailure
      exact absurd hfailure (by simp [truthy])
  refine ⟨hbinding, hhost, hlog, hanchor, hfixed, ?_⟩
  intro hverified
  cases htime : reads.logTime with
  | none => rfl
  | some reason =>
    have hwindow := h.window
    have hspoiled : (historyAfterLog reads result).ok = false := by
      unfold historyAfterLog
      rw [hlogOf, Option.filter_some, if_pos (by simp [hlog, hverified]), htime]
    exact absurd hwindow.ok (by simp [cliSource, hspoiled])

theorem resultOf_legacy (h : verifyReceiptChecks sha256Utf8 doc reads.toAnswers (cliOptions checkPayer) =
      legacyResult sha256Utf8 doc reads.toAnswers (cliOptions checkPayer) inferred) :
    (resultOf sha256Utf8 checkPayer reads doc).toVerificationVerdictSource = (attachPayerBinding doc reads.toAnswers
          (legacyResult sha256Utf8 doc reads.toAnswers (cliOptions checkPayer) inferred)).toVerificationVerdictSource ∧
      (resultOf sha256Utf8 checkPayer reads doc).payer_binding
        = payerBindingCheck doc reads.toAnswers reads.signature := by
  unfold resultOf verifyReceipt
  rw [h]
  exact ⟨rfl, rfl⟩

theorem payer_of_passes (hvalid : reads.signature.valid = true) (hcheck : checkPayer = true)
    (h : payerOutcome (payerCheck doc reads.toAnswers (cliOptions checkPayer)) = .pass) :
    payerCheckOutcome reads.payer_valid reads.payer_reason = .pass := by
  unfold payerCheck at h
  rw [if_pos (show (cliOptions checkPayer).checkPayer = true from hcheck), if_pos hvalid] at h
  exact h

/-- **VERIFIED needs everything clear.** -/
theorem clear_of_verified (hreceipt : isRefusalDocument doc.receipt doc.claims = false)
    (h : (verdictOf sha256Utf8 checkPayer reads doc).result = .verified) : Clear sha256Utf8 checkPayer reads doc := by
  have hpass : Passes (cliSource reads (resultOf sha256Utf8 checkPayer reads doc))
      (cliContext checkPayer reads (resultOf sha256Utf8 checkPayer reads doc)) :=
    verdictFromVerification_verified_iff.1 h
  have hafter : historyAfterLog reads (resultOf sha256Utf8 checkPayer reads doc) =
      (resultOf sha256Utf8 checkPayer reads doc).issuer_history := historyAfterLog_eq hpass.window
  have hwindow : InWindow (resultOf sha256Utf8 checkPayer reads doc).issuer_history := hafter ▸ hpass.window
  obtain ⟨inferred, hgate, hidentity, hlisted, hlegacy⟩ := legacy_of_inWindow hpass.signature hwindow
  obtain ⟨hsource, hpb⟩ := resultOf_legacy hlegacy
  obtain ⟨hbad, hhost, hlog, hanchor, hfixed, htime⟩ := log_of_passes hpass
  rw [hpb] at hbad
  have hresolved : reads.resolved.invalid = false ∧ reads.resolved.documentPresent = true :=
    ⟨hpass.valid, hpass.present⟩
  have hcli : cliSource reads (resultOf sha256Utf8 checkPayer reads doc) =
      (attachPayerBinding doc reads.toAnswers
        (legacyResult sha256Utf8 doc reads.toAnswers (cliOptions checkPayer)
          inferred)).toVerificationVerdictSource := by
    rw [← hsource, cliSource, hafter]
  rw [hcli] at hpass
  have htrusted : trusted reads.signature = true := hpass.signature
  have hvalid : reads.signature.valid = true := (Bool.and_eq_true _ _ ▸ htrusted : _ ∧ _).1
  have hquiet : ∀ err ∈ checkErrors sha256Utf8 doc reads.toAnswers (cliOptions checkPayer) inferred,
    isQuiet err = true := by
    have herrors := attachPayerBinding_errors
      (legacyResult sha256Utf8 doc reads.toAnswers (cliOptions checkPayer) inferred) hbad
    rw [show checkErrors _ _ _ _ _ = _ from herrors.symm]
    exact hpass.quiet
  obtain ⟨hpreimages, hcanonical⟩ := preimages_of_quiet hquiet
  have hin : InWindow (issuerHistory reads.toAnswers (cliOptions checkPayer) inferred) := hpass.window
  have hbinding : (truthy reads.binding.expected).isSome = true → reads.binding.matches = true := by
    have := hpass.binding
    simpa [attachPayerBinding, legacyResult, bindingCheck, hvalid] using this
  have hpayer : checkPayer = true → payerCheckOutcome reads.payer_valid reads.payer_reason = .pass := by
    intro hcheck
    have := hpass.payer
    rw [if_pos (show (cliContext checkPayer reads _).payerRequired = true from hcheck)] at this
    exact payer_of_passes hvalid hcheck this
  obtain ⟨hhistory, htimely⟩ := (issuerHistory_inWindow_iff hvalid rfl).1 hin
  rw [checkErrors_eq hvalid hreceipt hpass.claims hbinding hpayer hpreimages hcanonical hin.ok] at hquiet
  exact
    { receipt := hreceipt
      version := ⟨inferred, hgate, hlisted, htimely⟩
      identity := hidentity
      signature := htrusted
      history := ⟨hresolved.1, hresolved.2, hhistory⟩
      claims := hpass.claims
      binding := hbinding
      payer := hpayer
      preimages := ⟨hpreimages, hpass.preimages⟩
      canonical := hcanonical
      payer_binding := hbad
      log := ⟨hhost, hlog, hanchor, hfixed, htime⟩
      quiet := hquiet }

section

variable (h : Clear sha256Utf8 checkPayer reads doc)
include h

theorem checks_of_clear (hgate : reads.gate = some (.legacy inferred))
    (hlisted : inferred = true → reads.listed = true) :
    verifyReceiptChecks sha256Utf8 doc reads.toAnswers (cliOptions checkPayer) =
      legacyResult sha256Utf8 doc reads.toAnswers (cliOptions checkPayer) inferred := by
  unfold verifyReceiptChecks
  rw [hgate, h.identity]
  dsimp only
  rw [if_neg]
  cases inferred with
  | false => simp
  | true => simp [hlisted rfl]

theorem payerOutcome_of_clear (hvalid : reads.signature.valid = true) :
    payerOutcome (payerCheck doc reads.toAnswers (cliOptions checkPayer)) =
      if checkPayer = true then .pass else .unchecked := by
  unfold payerCheck
  cases hcheck : checkPayer with
  | true =>
    rw [if_pos (show (cliOptions true).checkPayer = true from rfl), if_pos hvalid]
    simp [payerOutcome, h.payer hcheck]
  | false =>
    have h1 : payerCheckOutcome false (some "On-chain payer check not requested — pass checkPayer: true")
      = .unchecked := by
      decide +kernel
    have h2 : payerCheckOutcome false (some "No payer_wallet or payment.ref to verify")
      = .unchecked := by decide +kernel
    rw [if_neg (by simp [cliOptions]), if_neg Bool.false_ne_true]
    dsimp only [payerOutcome, Option.getD_none]
    rw [hvalid]
    split_ifs with hnamed hno
    · exact h1
    · exact absurd hno (by simp)
    · exact h2

theorem passes_of_clear : Passes (cliSource reads (resultOf sha256Utf8 checkPayer reads doc))
      (cliContext checkPayer reads (resultOf sha256Utf8 checkPayer reads doc)) := by
  obtain ⟨inferred, hgate, hlisted, htimely⟩ := h.version
  obtain ⟨hhost, hlog, hanchor, hfixed, htime⟩ := h.log
  have hvalid : reads.signature.valid = true := (Bool.and_eq_true _ _ ▸ h.signature : _ ∧ _).1
  have hin : InWindow (issuerHistory reads.toAnswers (cliOptions checkPayer) inferred) :=
    (issuerHistory_inWindow_iff hvalid rfl).2 ⟨h.history.2.2, htimely⟩
  obtain ⟨hsource, hpb⟩ := resultOf_legacy (checks_of_clear h hgate hlisted)
  have herrors : (resultOf sha256Utf8 checkPayer reads doc).errors = reads.keyErrors ++ besideErrors doc := by
    have := congrArg VerificationVerdictSource.errors hsource
    rw [show (resultOf sha256Utf8 checkPayer reads doc).errors = _ from this,
      attachPayerBinding_errors _ h.payer_binding, show (legacyResult _ _ _ _ _).errors = _ from
      checkErrors_eq hvalid h.receipt h.claims h.binding h.payer h.preimages.1 h.canonical hin.ok]
  have hread : readsLog reads (resultOf sha256Utf8 checkPayer reads doc) = true := by
    have hsup : unsupported (resultOf sha256Utf8 checkPayer reads doc).errors = false := by
      rw [herrors]
      exact supported_of_quiet h.quiet
    have hsig : (resultOf sha256Utf8 checkPayer reads doc).issuer_signature = reads.signature :=
      congrArg VerificationVerdictSource.issuer_signature hsource
    have hhist : (resultOf sha256Utf8 checkPayer reads doc).issuer_history =
        issuerHistory reads.toAnswers (cliOptions checkPayer) inferred :=
      congrArg VerificationVerdictSource.issuer_history hsource
    unfold readsLog
    rw [hsig, hhist, hsup, hvalid, h.history.1, hin.ok, hhost]
    rfl
  have hlogOf : logOf reads (resultOf sha256Utf8 checkPayer reads doc) = some reads.fresh := by simp [logOf, hread]
  have hafter : historyAfterLog reads (resultOf sha256Utf8 checkPayer reads doc) =
      (resultOf sha256Utf8 checkPayer reads doc).issuer_history := by
    unfold historyAfterLog
    rw [hlogOf]
    cases hver : reads.fresh.verified with
    | false =>
      rw [Option.filter_some, if_neg (by simp [hver])]
    | true =>
      rw [htime hver]
      split
      · rename_i hnone
        cases hnone
      · rfl
  have hcli : cliSource reads (resultOf sha256Utf8 checkPayer reads doc) =
      (resultOf sha256Utf8 checkPayer reads doc).toVerificationVerdictSource := by rw [cliSource, hafter]
  rw [hcli]
  constructor
  · dsimp only [cliContext]
    rw [hpb, if_neg (by simp [h.payer_binding]), hlogOf, Option.bind_some, hfixed]
    rfl
  · rw [herrors]
    exact h.quiet
  · rw [hsource]
    exact h.signature
  · exact h.history.1
  · exact h.history.2.1
  · rw [hsource]
    exact hin
  · rw [hsource]
    exact h.claims
  · rw [hsource]
    simpa [attachPayerBinding, legacyResult, bindingCheck, hvalid] using h.binding
  · rw [hsource]
    have hout := payerOutcome_of_clear h hvalid
    cases hcheck : checkPayer with
    | true =>
      rw [if_pos (show (cliContext true reads _).payerRequired = true from rfl)]
      rw [hcheck, if_pos rfl] at hout
      exact hout
    | false =>
      rw [if_neg (by simp [cliContext])]
      intro hchecked
      simp [attachPayerBinding, legacyResult, payerCheck, cliOptions] at hchecked
  · rw [hsource]
    exact h.preimages.2
  · simp [cliContext, hlogOf, hlog]
  · simp [cliContext, hlogOf, hanchor]

/-- Of the flags of a clear receipt, two are left. -/
theorem flagged_of_clear (hvalid : reads.signature.valid = true)
    (htimely : timeInWindow reads inferred) : flagged sha256Utf8 doc reads.toAnswers (cliOptions checkPayer) inferred =
      (claimRefused doc reads.toAnswers || headMissing doc reads.toAnswers) := by
  have hin : InWindow (issuerHistory reads.toAnswers (cliOptions checkPayer) inferred) :=
    (issuerHistory_inWindow_iff hvalid rfl).2 ⟨h.history.2.2, htimely⟩
  have hsignature : signatureFailed reads.toAnswers (cliOptions checkPayer) = false := by simp [signatureFailed, hvalid]
  have hhistory : historyFailed (issuerHistory reads.toAnswers (cliOptions checkPayer) inferred) = false := by
    simp [historyFailed, hin.ok]
  have hbound : ((truthy (bindingCheck reads.toAnswers).expected).isSome
    && !(bindingCheck reads.toAnswers).matches) = false := by
    unfold bindingCheck
    rw [if_pos hvalid]
    cases hexp : (truthy reads.binding.expected).isSome with
    | false => rfl
    | true => simp [h.binding hexp]
  have hpaid : ((cliOptions checkPayer).checkPayer &&
      (payerCheck doc reads.toAnswers (cliOptions checkPayer)).outcome = some .fail) = false := by
    cases hcheck : checkPayer with
    | false => rfl
    | true => simp [payerCheck, cliOptions, hvalid, h.payer hcheck]
  have hnull : nullifierAnswer doc reads.toAnswers (cliOptions checkPayer) = none := by
    simp [nullifierAnswer, cliOptions]
  unfold flagged
  rw [hsignature, h.claims, hbound, hpaid, hnull, h.preimages.1, hhistory, h.canonical]
  simp [witnessFailed, cliOptions]

/-- **WHAT IS LEFT**: a clear receipt fails in the library exactly when one of
    the three failures beside the six checks is there. -/
theorem failed_iff_of_clear : (resultOf sha256Utf8 checkPayer reads doc).overall = .failed ↔ refusedBeside doc := by
  obtain ⟨inferred, hgate, hlisted, htimely⟩ := h.version
  have hvalid : reads.signature.valid = true := (Bool.and_eq_true _ _ ▸ h.signature : _ ∧ _).1
  have hlegacy := checks_of_clear h hgate hlisted
  have hpasses := passes_of_clear h
  have hafter := historyAfterLog_eq hpasses.window
  have hlibrary := @Passes.library_checks _ _ (libraryContext (attachPayerBinding doc reads.toAnswers
    (legacyResult sha256Utf8 doc reads.toAnswers (cliOptions checkPayer) inferred))) hpasses rfl rfl rfl rfl
  rw [show cliSource reads (resultOf sha256Utf8 checkPayer reads doc) =
      (resultOf sha256Utf8 checkPayer reads doc).toVerificationVerdictSource by rw [cliSource, hafter],
    (resultOf_legacy hlegacy).1] at hlibrary
  have hpayer : payerOutcome (payerCheck doc reads.toAnswers (cliOptions checkPayer)) ≠ .fail := by
    rw [payerOutcome_of_clear h hvalid]
    split_ifs <;> simp
  unfold resultOf verifyReceipt
  rw [hlegacy, withLibraryVerdict_failed_iff, or_iff_left (hlibrary hpayer), attachPayerBinding_failed_iff]
  rw [show bindingInvalid (payerBindingCheck doc reads.toAnswers (legacyResult _ _ _ _ _).issuer_signature) = false from
    h.payer_binding]
  show false = true ∨ checkedOverall sha256Utf8 doc reads.toAnswers (cliOptions checkPayer) inferred = .failed ↔ _
  rw [checkedOverall_failed_iff _ rfl, flagged_of_clear h hvalid htimely, isRefused_eq hvalid, h.receipt]
  unfold refusedBeside claimRefused headMissing bindingErrors verifiedClaims
  rw [if_pos hvalid, if_pos hvalid, hvalid]
  simp only [Bool.false_eq_true, false_or, Bool.true_and, Bool.or_eq_true, decide_eq_true_eq]
  tauto

end

/-- **THE CLI BESIDE THE LIBRARY**: its verdict is no more generous exactly on
    the inputs that are not clear, or carry none of the three failures that
    only the library forwards. -/
theorem noMoreGenerous_iff (sha256Utf8 : String → String) (checkPayer : Bool) (reads : Reads) (document : Document) :
    NoMoreGenerous (checkReceiptInput sha256Utf8 checkPayer reads document) ↔
      ∀ doc, document = .signed doc → ¬ (Clear sha256Utf8 checkPayer reads doc ∧ refusedBeside doc) := by
  unfold NoMoreGenerous
  cases document with
  | unsigned verdict => simp [checkReceiptInput]
  | signed doc =>
    simp only [Document.signed.injEq, forall_eq']
    unfold checkReceiptInput
    dsimp only
    by_cases hreceipt : isRefusalDocument doc.receipt doc.claims = true
    · rw [if_pos hreceipt]
      constructor
      · rintro - ⟨hclear, -⟩
        exact absurd hclear.receipt (by simp [hreceipt])
      · intro _ _ result hresult
        exact absurd hresult (by simp)
    · rw [if_neg hreceipt]
      have hreceipt' := Bool.eq_false_iff.2 hreceipt
      constructor
      · rintro hagree ⟨hclear, hbeside⟩
        have hverified := verdictFromVerification_verified_iff.2 (passes_of_clear hclear)
        exact hagree hverified _ rfl ((failed_iff_of_clear hclear).2 hbeside)
      · intro hno hverified result hresult hfailed
        cases hresult
        have hclear := clear_of_verified hreceipt' hverified
        exact hno ⟨hclear, (failed_iff_of_clear hclear).1 hfailed⟩

end Comparison

/-! ## A receipt that names another payee -/

/-- An issued receipt whose outer payment carries one more field: a payee
    of the sender's own choice. -/
def retargeted : SignedReceipt where
  receipt :=
    [("schema", .str "xfuel.receipt.v3"), ("task_id", .str "task-7"),
      ("verify_url", .str "https://api.chit402.com/receipt/task-7"),
      ("payment", .obj [("rail", .str "usdc"), ("ref", .str "base:0xab"), ("gross_amount", .str "1000000"),
        ("payee", .str "0x1111111111111111111111111111111111111111"),
        ("payTo", .str "0x2222222222222222222222222222222222222222")]),
      ("issuer_signature", .obj [("jws", .str "header.payload.signature"), ("kid", .str "kid-1")])]
  claims :=
    [("payload_version", .num (.finite false 7 0)), ("task_id", .str "task-7"),
      ("payment", .obj [("rail", .str "usdc"), ("ref", .str "base:0xab"), ("gross_amount", .str "1000000"),
        ("payee", .str "0x1111111111111111111111111111111111111111")]),
      ("caller_binding", .obj [("payer_wallet", .str "0x3333333333333333333333333333333333333333")])]
  compact := true

/-- Reads of a sound receipt: key in its window, payment on chain, leaf anchored. -/
def soundReads : Reads where
  gate := some (.legacy false)
  identityErrors := []
  listed := false
  keyErrors := []
  signature := ⟨true, true, true, some "kid-1", none⟩
  history := ⟨true, true, false, none, true⟩
  window := none
  binding := ⟨none, false⟩
  payer_valid := true
  payer_reason := none
  preimages := ⟨[], []⟩
  payer_binding := ⟨false, false, none⟩
  v11_signature := ⟨false, false, false, none, none⟩
  v11_errors := []
  v11_window := none
  resolved := ⟨false, none, true⟩
  logHostOk := true
  fresh := ⟨.pass, .pass, none, true, none⟩
  logTime := none
  refusal := ⟨false, []⟩

/-- **THE GAP**: the CLI prints VERIFIED for a receipt whose outer payment pays
    somebody the issuer never signed, and the library result failed. -/
theorem retargeted_verified : ¬ NoMoreGenerous
    (checkReceiptInput (fun _ => "") true soundReads (.signed retargeted)) := by
  have hrun : (checkReceiptInput (fun _ => "") true soundReads (.signed retargeted)).verdict.result = .verified ∧
      (checkReceiptInput (fun _ => "") true soundReads (.signed retargeted)).library.map ReceiptVerification.overall =
        some .failed := by
    decide +kernel
  obtain ⟨hverified, hlibrary⟩ := hrun
  intro hagree
  obtain ⟨result, hresult, hfailed⟩ := Option.map_eq_some_iff.1 hlibrary
  exact hagree hverified result hresult hfailed

end CheckInput
