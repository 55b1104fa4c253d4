import Chit402.ExceptFlowProofs
import Chit402.SpendHoldCeilingProofs
import Chit402.TraceProofs

/-! # The spend-hold service

    `createSpendHoldService` puts an HTTP face on the hold store.  A placed
    hold lives in the store; what was paid for lives in `entries`, a second
    map under the same request id, and a settled hold's receipt in a third.
    The store lets an id reserve again once its hold is released or expired;
    `entries` keeps what it saw first. -/

namespace SpendHoldApi

open OrderedMap Trace JsText SpendHold ExceptFlow

variable {τ : Type}

/-! ## Data -/

/-- `FUNDER_SCOPE` -/
def FUNDER_SCOPE : String := "funder"

def BASE_SEPOLIA_NETWORKS : List String := ["eip155:84532", "base-sepolia"]

def BASE_SEPOLIA_USDC : String := "0x036cbd53842c5426634e7929541ec2318f3dcf7e"

def MAINNET_USDC : String := "0x833589fcd6edb6e08f4c7c32d4f71b54bda02913"

/-- What a place call paid for, as `entries` keeps it. -/
structure Entry where
  atomicAmount : ℕ
  asset : String
  network : String
  payTo : String
  entryAt : ℤ
  funder : String
deriving DecidableEq

/-- The body of `POST /holds`. Absent texts are empty; `entry_at` is absent when it is not a finite number. -/
structure PlaceBody where
  request_id : String
  amount : Amount
  funder : String
  network : String
  asset : String
  pay_to : String
  entry_at : Option ℤ

/-- The body of `POST /holds/:request_id/settle`. `agent_id` is absent unless it is an integer. -/
structure SettleBody where
  tx : String
  payer : String
  resource : String
  agent_id : Option ℤ

/-- What `new URL(text)` reads. -/
structure Url where
  protocol : String
  hostname : String
  host : String
  pathname : String
  href : String

structure ReceiptPayment where
  ref : String
  network : String
  gross_amount : ℕ
  settled_amount : ℕ
  asset : String
  payee : Option String
  payer : String
deriving DecidableEq

structure Receipt (τ : Type) where
  task_id : String
  created_at : τ
  claim_id : Option ℤ
  payment : ReceiptPayment
  hub : String
  model : String
  resource : String
  request_id : String
  jws : String
  verify_url : String

/-- The service's configuration and the libraries it calls. -/
structure Config (τ : Type) where
  host : Host τ
  caps : OrderedMap String ℕ
  parseUrl : String → Option Url
  /-- `buildVerifyUrl(publicBase, taskId)` -/
  verifyUrl : String → String

/-- What one request meets: two clock readings and store results, the write
    of the metadata file, and for a settle the signer's answer and a fresh
    task id.  A failure is its error code. -/
structure Meets (τ : Type) where
  first : Outside τ
  second : Outside τ
  metaSaved : Except String Unit
  signed : Except String String
  taskUuid : String

structure Service (τ : Type) where
  store : Store τ
  entries : OrderedMap String Entry
  receipts : OrderedMap String (Receipt τ)
  taskIndex : OrderedMap String String

structure Row where
  request_id : String
  atomicAmount : ℕ
  asset : String
  network : String
  payTo : String
  entryAt : ℤ
  state : HoldState

structure FunderStatus where
  cap : Option ℕ
  held : ℕ
  spent : ℕ
  remaining : Option ℕ

/-- `ceilingErrorBody`; every field is null for a refusal that names no ceiling. -/
structure CeilingErrorBody where
  refusal : Option CeilingExceeded
  agent_id : Option String
  delegation_hash : Option String

inductive Body (τ : Type)
  | error (code message : String)
  | ceilingError (body : CeilingErrorBody)
  | notSettled (code : String) (state : Option HoldState)
  | placed (idempotent : Bool) (hold : Option (PublicHold τ))
  | released (reply : Option (PublicHold τ)) (idempotent : Bool)
  | settled (idempotent : Bool) (receipt : Receipt τ)
  | list (rows : List Row) (status : FunderStatus)
  | swept

structure Response (τ : Type) where
  status : ℕ
  body : Body τ

/-! ## The handlers -/

section Handlers

variable (cfg : Config τ)

def normalizeFunder (value : String) : Option String :=
  let s := cfg.host.toLowerCase (trimmed value)
  match s.toList with
  | '0' :: 'x' :: digits => if digits.length = 40 ∧ digits.all isLowerHexDigit then some s else none
  | _ => none

def isSepoliaNetwork (network : String) : Bool := cfg.host.toLowerCase (trimmed network) ∈ BASE_SEPOLIA_NETWORKS

def isSepoliaUsdc (asset : String) : Bool := cfg.host.toLowerCase (trimmed asset) = BASE_SEPOLIA_USDC

def failed (status : ℕ) (code message : String) : Response τ := ⟨status, .error code message⟩

/-- The answer to a throw: only a failed write carries its own code. -/
def thrown : Fault → Response τ
  | .persistFailed => failed 500 "persist_failed" "spend hold failed"
  | .rangeError => failed 500 "internal" "spend hold failed"

def ceilingErrorBody (refusal : Option CeilingExceeded) : CeilingErrorBody where
  refusal := refusal
  agent_id := (refusal.filter (·.ceiling = "agent")).map CeilingExceeded.scope_key
  delegation_hash := (refusal.filter (·.ceiling = "session")).map CeilingExceeded.scope_key

/-- A place call that passed every check. -/
structure Accepted where
  requestId : String
  entry : Entry
  cap : ℕ

def checkPlace (body : PlaceBody) : Except (Response τ) Accepted :=
  let requestId := trimmed body.request_id
  let network := trimmed body.network
  let asset := trimmed body.asset
  match normalizeFunder cfg body.funder with
  | none => .error (failed 400 "funder_required" "funder must be a 20-byte address")
  | some funder =>
    if requestId = "" ∨ 200 < JsText.length requestId then
      .error (failed 400 "request_id_required" "request_id is required")
    else if ¬ isSepoliaNetwork cfg network ∨ cfg.host.toLowerCase asset = MAINNET_USDC ∨ ¬ isSepoliaUsdc cfg asset then
      .error (failed 400 "testnet_only"
        "spend holds accept Base Sepolia (eip155:84532) and Sepolia USDC only")
    else match normalizeFunder cfg body.pay_to with
      | none => .error (failed 400 "pay_to_required" "pay_to must be a 20-byte address")
      | some payTo =>
        match body.entry_at with
        | none => .error (failed 400 "entry_at_required" "entry_at must be a finite number")
        | some entryAt =>
          match cfg.caps.lookup funder with
          | none => .error (failed 403 "no_ceiling" "no cap is configured for this funder")
          | some cap =>
            match parseAtomic body.amount with
            | none => .error (failed 400 "invalid_amount" "amount must be a positive atomic integer")
            | some amount =>
              if amount = 0 then .error (failed 400 "invalid_amount" "amount must be a positive atomic integer")
              else .ok {
                requestId := requestId
                cap := cap
                entry := {
                  atomicAmount := amount
                  asset := cfg.host.toLowerCase asset
                  network := cfg.host.toLowerCase network
                  payTo := payTo
                  entryAt := entryAt
                  funder := funder } }

/-- The ceiling a place call reserves under. -/
def funderCeiling (a : Accepted) : Ceiling where
  scope := some FUNDER_SCOPE
  key := some a.entry.funder
  cap := .bigint a.cap
  settled := none

/-- The answer once the metadata file was written, or the throw of a write that failed. -/
def persisted (m : Meets τ) (response : Response τ) : Response τ :=
  match m.metaSaved with
  | .ok _ => response
  | .error code => failed 500 code "spend hold failed"

/-- Metadata is written on the first sight of an id. -/
def noteEntry (svc : Service τ) (requestId : String) (entry : Entry) (m : Meets τ) (response : Response τ) :
    Service τ × Response τ :=
  if requestId ∈ svc.entries then (svc, response)
  else ({ svc with entries := svc.entries.set requestId entry }, persisted m response)

def reservePlace (svc : Service τ) (a : Accepted) (o : Outside τ) : Outcome τ (Reply τ) :=
  reserve cfg.host svc.store a.requestId (.bigint a.entry.atomicAmount) [funderCeiling a] o

def place (svc : Service τ) (body : PlaceBody) (m : Meets τ) : Service τ × Response τ :=
  match checkPlace cfg body with
  | .error refusal => (svc, refusal)
  | .ok a =>
    let svc' := { svc with store := (reservePlace cfg svc a m.first).1 }
    match (reservePlace cfg svc a m.first).2 with
    | .error fault => (svc', thrown fault)
    | .ok (.held hold idempotent) =>
      noteEntry svc' a.requestId a.entry m ⟨if idempotent then 200 else 201, .placed idempotent (some hold)⟩
    | .ok .unlimited => noteEntry svc' a.requestId a.entry m ⟨201, .placed false none⟩
    | .ok (.ceilingExceeded refusal) => (svc', ⟨409, .ceilingError (ceilingErrorBody (some refusal))⟩)
    | .ok _ => (svc', ⟨409, .ceilingError (ceilingErrorBody none)⟩)

def releaseRoute (svc : Service τ) (requestId : String) (m : Meets τ) : Service τ × Response τ :=
  let svc' := { svc with store := (release cfg.host svc.store requestId m.first).1 }
  match (release cfg.host svc.store requestId m.first).2 with
  | .error fault => (svc', thrown fault)
  | .ok (.released hold idempotent) => (svc', ⟨200, .released (some hold) idempotent⟩)
  | .ok _ => (svc', ⟨200, .released none true⟩)

def funderOfHold (hold : PublicHold τ) (funder : String) : Bool :=
  hold.ceilings.any fun leg => leg.scope = FUNDER_SCOPE && leg.key = funder

def statusFor (funder : String) (holds : List (PublicHold τ)) : FunderStatus :=
  let cap := cfg.caps.lookup funder
  let mine := holds.filter (funderOfHold · funder)
  let held := (mine.map fun hold => if hold.state = .OPEN then hold.reserved else 0).sum
  let spent := (mine.map fun hold => if hold.state = .CONSUMED then hold.consumed_amount.getD 0 else 0).sum
  { cap := cap, held := held, spent := spent, remaining := cap.map (· - (held + spent)) }

/-- The row of one hold: its state, and what `entries` says of its id. -/
def listRow (svc : Service τ) (funder : String) (hold : PublicHold τ) : Option Row :=
  if funderOfHold hold funder then
    (svc.entries.lookup hold.request_id).map fun entry => {
      request_id := hold.request_id
      atomicAmount := entry.atomicAmount
      asset := entry.asset
      network := entry.network
      payTo := entry.payTo
      entryAt := entry.entryAt
      state := hold.state }
  else none

def listRoute (svc : Service τ) (funder : String) (m : Meets τ) : Service τ × Response τ :=
  match normalizeFunder cfg funder with
  | none => (svc, failed 400 "funder_required" "funder must be a 20-byte address")
  | some funder =>
    if funder ∉ cfg.caps then (svc, failed 404 "no_ceiling" "no cap is configured for this funder")
    else
      let svc' := { svc with store := (snapshot cfg.host svc.store m.first).1 }
      match (snapshot cfg.host svc.store m.first).2 with
      | .error fault => (svc', thrown fault)
      | .ok holds => (svc', ⟨200, .list (holds.filterMap (listRow svc funder)) (statusFor cfg funder holds)⟩)

/-- `bookNetwork`, on the networks a place call accepts. -/
def bookNetwork (network : String) : String :=
  if network = "eip155:84532" ∨ network = "base-sepolia" then "base-sepolia" else network

def isTxHash (tx : String) : Bool :=
  match tx.toList with
  | '0' :: 'x' :: digits => digits.length = 64 && digits.all isHexDigit
  | _ => false

def isPaidResource (url : Url) : Bool :=
  let hostName := cfg.host.toLowerCase url.hostname
  let isLocal := hostName = "localhost" || hostName = "127.0.0.1" || hostName = "::1"
  url.protocol = "https:" || (url.protocol = "http:" && isLocal)

/-- `issueReceipt`, up to the store of the receipt: an answer to refuse with, a throw, or a signed receipt. -/
def issueReceipt (svc : Service τ) (requestId : String) (hold : PublicHold τ) (body : SettleBody) (m : Meets τ) :
    Except (Response τ) (Receipt τ) :=
  let entry := svc.entries.lookup requestId
  let tx := trimmed body.tx
  if ¬ isTxHash tx then .error (failed 400 "tx_required" "settle requires a Base Sepolia tx hash")
  else match normalizeFunder cfg body.payer with
    | none => .error (failed 400 "payer_required" "settle requires the payer address")
    | some payer =>
      match cfg.parseUrl (trimmed body.resource) with
      | none => .error (failed 400 "resource_required" "settle requires an http(s) resource URL")
      | some url =>
        if ¬ isPaidResource cfg url then
          .error (failed 400 "resource_required" "resource must be https, or http on localhost")
        else
          let network := bookNetwork ((entry.map Entry.network).getD "base-sepolia")
          let taskId := "xfuel-" ++ m.taskUuid
          match m.signed with
          | .error code => .error (failed 500 code "spend hold failed")
          | .ok jws => .ok {
            task_id := taskId
            created_at := m.second.now
            claim_id := body.agent_id.filter (1 ≤ ·)
            payment := {
              ref := network ++ ":" ++ tx
              network := network
              gross_amount := hold.reserved
              settled_amount := hold.reserved
              asset := (entry.map Entry.asset).getD BASE_SEPOLIA_USDC
              payee := entry.map Entry.payTo
              payer := payer }
            hub := url.host
            model := url.pathname
            resource := url.href
            request_id := requestId
            jws := jws
            verify_url := cfg.verifyUrl taskId }

/-- Issue the receipt of a settled hold and keep it under its request id. -/
def settleHold (svc : Service τ) (requestId : String) (hold : PublicHold τ) (body : SettleBody) (m : Meets τ) :
    Service τ × Response τ :=
  match issueReceipt cfg svc requestId hold body m with
  | .error refusal => (svc, refusal)
  | .ok receipt =>
    ({ svc with
      receipts := svc.receipts.set requestId receipt
      taskIndex := svc.taskIndex.set receipt.task_id requestId }, persisted m ⟨200, .settled false receipt⟩)

/-- The spend is counted before the receipt is signed. -/
def settleRoute (svc : Service τ) (requestId : String) (body : SettleBody) (m : Meets τ) : Service τ × Response τ :=
  match svc.receipts.lookup requestId with
  | some cached => (svc, ⟨200, .settled true cached⟩)
  | none =>
    let svc' := { svc with store := (snapshot cfg.host svc.store m.first).1 }
    match (snapshot cfg.host svc.store m.first).2 with
    | .error fault => (svc', thrown fault)
    | .ok holds =>
      match holds.find? fun row => row.request_id = requestId with
      | none => (svc', failed 404 "hold_not_found" "no hold for this request_id")
      | some hold =>
        if hold.state = .OPEN then
          let svc'' := { svc with store := (consume cfg.host svc'.store requestId (.bigint hold.reserved) m.second).1 }
          match (consume cfg.host svc'.store requestId (.bigint hold.reserved) m.second).2 with
          | .error fault => (svc'', thrown fault)
          | .ok (.consumed ..) => settleHold cfg svc'' requestId hold body m
          | .ok (.holdNotOpen state _) => (svc'', ⟨409, .notSettled "hold_not_open" (some state)⟩)
          | .ok _ => (svc'', ⟨409, .notSettled "hold_not_found" none⟩)
        else if hold.state = .CONSUMED then settleHold cfg svc' requestId hold body m
        else (svc', ⟨409, .notSettled "hold_not_open" (some hold.state)⟩)

end Handlers

/-! ## Runs -/

inductive Request
  | place (body : PlaceBody)
  | release (requestId : String)
  | settle (requestId : String) (body : SettleBody)
  | list (funder : String)
  | expire

section Runs

variable (cfg : Config τ)

def exec (svc : Service τ) (m : Meets τ) : Request → Service τ × Response τ
  | .place body => place cfg svc body m
  | .release requestId => releaseRoute cfg svc requestId m
  | .settle requestId body => settleRoute cfg svc requestId body m
  | .list funder => listRoute cfg svc funder m
  | .expire => ({ svc with store := (expireDue cfg.host svc.store m.first).1 }, ⟨200, .swept⟩)

def emptyService : Service τ := ⟨emptyStore, ∅, ∅, ∅⟩

/-- The store a request's reserve works on. -/
def sweptStore (svc : Service τ) (m : Meets τ) : Store τ :=
  (expire cfg.host svc.store m.first.now m.first.sweepSaved).1

/-- The service, and beside it what was paid for the hold that now stands
    under each id: the values of the place call that created it. -/
structure World (τ : Type) where
  svc : Service τ
  origin : OrderedMap String Entry

def emptyWorld : World τ := ⟨emptyService, ∅⟩

/-- The place call creates a hold: none was live under its id, and one is. -/
def createsHold (svc : Service τ) (a : Accepted) (m : Meets τ) : Bool :=
  (existingLive (sweptStore cfg svc m) a.requestId).isNone
    && (existingLive (reservePlace cfg svc a m.first).1 a.requestId).isSome

def originAfter (w : World τ) (m : Meets τ) : Request → OrderedMap String Entry
  | .place body =>
    match checkPlace cfg body with
    | .ok a => if createsHold cfg w.svc a m then w.origin.set a.requestId a.entry else w.origin
    | .error _ => w.origin
  | _ => w.origin

def next (w : World τ) (r : Request × Meets τ) : World τ :=
  ⟨(exec cfg w.svc r.2 r.1).1, originAfter cfg w r.2 r.1⟩

/-- The two entries say the same of the payment. -/
def Entry.SamePayment (e o : Entry) : Prop :=
  e.atomicAmount = o.atomicAmount ∧ e.asset = o.asset ∧ e.network = o.network ∧ e.payTo = o.payTo

instance (e o : Entry) : Decidable (e.SamePayment o) :=
  inferInstanceAs (Decidable (e.atomicAmount = o.atomicAmount ∧ e.asset = o.asset ∧ e.network = o.network
    ∧ e.payTo = o.payTo))

/-- A receipt's payment carries exactly what the entry says. -/
def ReceiptPayment.Carries (p : ReceiptPayment) (o : Entry) : Prop :=
  p.gross_amount = o.atomicAmount ∧ p.settled_amount = o.atomicAmount ∧ p.asset = o.asset
    ∧ p.network = o.network ∧ p.payee = some o.payTo

def Row.Carries (row : Row) (o : Entry) : Prop :=
  row.atomicAmount = o.atomicAmount ∧ row.asset = o.asset ∧ row.network = o.network ∧ row.payTo = o.payTo

/-- A receipt for `id` is signed between two states. -/
def Signs (w w' : World τ) (id : String) (receipt : Receipt τ) : Prop :=
  w.svc.receipts.lookup id = none ∧ w'.svc.receipts.lookup id = some receipt

/-- Metadata follows the hold, over a run from the empty service. -/
structure FollowsHold (requests : List (Request × Meets τ)) : Prop where
  /-- A signed receipt is for a settled hold and carries what was placed for it. -/
  receipt : ∀ before r after id receipt, requests = before ++ r :: after →
    Signs (run (next cfg) emptyWorld before) (run (next cfg) emptyWorld (before ++ [r])) id receipt →
    ∃ o hold, (run (next cfg) emptyWorld (before ++ [r])).origin.lookup id = some o
      ∧ (run (next cfg) emptyWorld (before ++ [r])).svc.store.byRequest.lookup id = some hold
      ∧ hold.state = .CONSUMED ∧ receipt.payment.Carries o
  /-- A listed row is for a live hold and carries what was placed for it. -/
  row : ∀ before m after funder rows status row, requests = before ++ (.list funder, m) :: after →
    (exec cfg (run (next cfg) emptyWorld before).svc m (.list funder)).2.body = .list rows status → row ∈ rows →
    ∃ o hold, (run (next cfg) emptyWorld before).origin.lookup row.request_id = some o
      ∧ existingLive (run (next cfg) emptyWorld (before ++ [(.list funder, m)])).svc.store row.request_id = some hold
      ∧ row.Carries o
  /-- A receipt, once signed for an id, is the only one. -/
  once : ∀ before r after id receipt, requests = before ++ r :: after →
    (run (next cfg) emptyWorld before).svc.receipts.lookup id = some receipt →
    (run (next cfg) emptyWorld (before ++ [r])).svc.receipts.lookup id = some receipt

/-- **The condition on one place call.** Where it creates a hold under an id
    with metadata, it pays what that metadata says. -/
def PaysAsFirst (w : World τ) (m : Meets τ) (a : Accepted) : Prop :=
  existingLive (sweptStore cfg w.svc m) a.requestId = none →
  verdict cfg.host (sweptStore cfg w.svc m) a.entry.atomicAmount m.first.now
    (normalizeCeilings cfg.host [funderCeiling a]) = none →
  m.first.saved = true → (cfg.host.dated m.first.now && cfg.host.dated (cfg.host.expiry m.first.now)) = true →
  ∀ e ∈ w.svc.entries.lookup a.requestId, e.SamePayment a.entry

/-- **The condition on one settle.** Where it may sign, the network of the
    metadata is the book's short name already. -/
def SpelledAsBooked (w : World τ) (requestId : String) : Prop :=
  w.svc.receipts.lookup requestId = none →
  ∀ e ∈ w.svc.entries.lookup requestId, bookNetwork e.network = e.network

def SameAsFirst (w : World τ) (r : Request × Meets τ) : Prop :=
  match r.1 with
  | .place body => ∀ a, checkPlace cfg body = .ok a → PaysAsFirst cfg w r.2 a
  | .settle requestId _ => SpelledAsBooked w requestId
  | _ => True

/-- Every request of the run meets the condition. -/
def SameAsFirstRun (w : World τ) : List (Request × Meets τ) → Prop
  | [] => True
  | r :: rest => SameAsFirst cfg w r ∧ SameAsFirstRun (next cfg w r) rest

end Runs

/-! ## What the store leaves live -/

variable {actual : Amount} {idempotent : Bool} {hold hold' : Hold τ} {o : Outside τ} {row : PublicHold τ}
  {s : Store τ} {requestId : String}

section Live

variable {host : Host τ}

/-- The same reservation, open or settled. -/
def Kin (hold hold' : Hold τ) : Prop :=
  hold'.request_id = hold.request_id ∧ hold'.reserved = hold.reserved ∧ hold'.created_at = hold.created_at
    ∧ hold'.expires_at = hold.expires_at

theorem Kin.refl (hold : Hold τ) : Kin hold hold := ⟨rfl, rfl, rfl, rfl⟩

theorem existingLive_eq_some {id : String} :
    existingLive s id = some hold ↔ s.byRequest.lookup id = some hold
      ∧ (hold.state = .OPEN ∨ hold.state = .CONSUMED) := by
  simp [existingLive, Option.filter_eq_some_iff]

theorem existingLive_set_ne {id id' : String} (hold : Hold τ) (h : id' ≠ id) :
    existingLive ⟨s.byRequest.set id hold⟩ id' = existingLive s id' := by
  unfold existingLive
  rw [lookup_set_ne _ _ h]

theorem live_of_swept {m : Store τ} (h : Swept s m) {id : String} (hlive : existingLive m id = some hold) :
    existingLive s id = some hold := by
  rw [existingLive_eq_some] at hlive ⊢
  have hrel := h.lookup id
  rw [hlive.1] at hrel
  generalize s.byRequest.lookup id = before at hrel ⊢
  cases hrel with
  | some hlapse =>
    rcases hlapse with rfl | ⟨-, -, hlost⟩
    · exact ⟨rfl, hlive.2⟩
    · rcases hlive.2 with hstate | hstate <;> rw [hstate] at hlost <;> simp at hlost

theorem live_of_consumed {m : Store τ} {id : String} {consumed_at : Option τ}
    (found : m.byRequest.lookup requestId = some hold) (opened : hold.state = .OPEN)
    (hlive : existingLive ⟨m.byRequest.set requestId ((hold.consume actual).stamp consumed_at)⟩ id = some hold') :
    ∃ old, existingLive m id = some old ∧ Kin old hold' := by
  by_cases hid : id = requestId
  · subst hid
    refine ⟨hold, existingLive_eq_some.2 ⟨found, Or.inl opened⟩, ?_⟩
    rw [existingLive_eq_some, lookup_set_self, Option.some.injEq] at hlive
    rw [← hlive.1]
    exact ⟨rfl, rfl, rfl, rfl⟩
  · rw [existingLive_set_ne _ hid] at hlive
    exact ⟨hold', hlive, Kin.refl hold'⟩

theorem consume_live (s : Store τ) (requestId : String) (actual : Amount) (o : Outside τ) {id : String}
    (hlive : existingLive (consume host s requestId actual o).1 id = some hold') :
    ∃ old, existingLive s id = some old ∧ Kin old hold' := by
  have hswept := swept_expire host s o.now o.sweepSaved
  have hchange : Change host _ o _ (consume host s requestId actual o).1 :=
    exec_change host s o (.consume requestId actual)
  generalize (expire host s o.now o.sweepSaved).1 = m at hswept hchange
  generalize (consume host s requestId actual o).1 = s' at hchange hlive
  cases hchange with
  | nothing => exact ⟨hold', live_of_swept hswept hlive, Kin.refl hold'⟩
  | consumed consumed_at found opened =>
    obtain ⟨old, hold, hkin⟩ := live_of_consumed found opened hlive
    exact ⟨old, live_of_swept hswept hold, hkin⟩

theorem release_live (s : Store τ) (requestId : String) (o : Outside τ) {id : String}
    (hlive : existingLive (release host s requestId o).1 id = some hold') : existingLive s id = some hold' := by
  have hswept := swept_expire host s o.now o.sweepSaved
  have hchange : Change host _ o _ (release host s requestId o).1 := exec_change host s o (.release requestId)
  generalize (expire host s o.now o.sweepSaved).1 = m at hswept hchange
  generalize (release host s requestId o).1 = s' at hchange hlive
  cases hchange with
  | nothing => exact live_of_swept hswept hlive
  | released released_at found opened =>
    exact live_of_swept hswept (live_of_swept (swept_released released_at found opened) hlive)

variable (host) in
/-- **What a reserve under a named id does**: it throws, returns the live hold,
    refuses, or commits a new one; only the last writes after its sweep. -/
theorem reserve_cases (s : Store τ) (hid : requestId ≠ "") (amount : Amount) (ceilings : List Ceiling) (o : Outside τ)
    {m : Store τ} (hm : (expire host s o.now o.sweepSaved).1 = m) :
    (∃ fault, reserve host s requestId amount ceilings o = (m, .error fault))
      ∨ (∃ live, existingLive m requestId = some live
        ∧ reserve host s requestId amount ceilings o = (m, (live.public host).map (.held · true)))
      ∨ (existingLive m requestId = none ∧ ∃ reply, reserve host s requestId amount ceilings o = (m, .ok reply)
        ∧ ∀ hold idempotent, reply ≠ .held hold idempotent)
      ∨ (existingLive m requestId = none ∧ ∃ requested, parseAtomic amount = some requested
        ∧ verdict host m requested o.now (normalizeCeilings host ceilings) = none
        ∧ reserve host s requestId amount ceilings o
          = commit host m (newHold host requestId requested (normalizeCeilings host ceilings)
            o.now o.uuid) o.saved) := by
  subst hm
  rcases afterSweep_cases _ s o _ with ⟨fault, heq⟩ | ⟨-, heq⟩
  · exact Or.inl ⟨fault, heq⟩
  · refine Or.inr ?_
    rw [reserve, heq, if_neg hid]
    cases hlive : existingLive (expire host s o.now o.sweepSaved).1 requestId with
    | some live => exact Or.inl ⟨live, rfl, rfl⟩
    | none =>
      dsimp only
      cases hamount : parseAtomic amount with
      | none => exact Or.inr (Or.inl ⟨rfl, _, rfl, by simp⟩)
      | some requested =>
        dsimp only
        split_ifs
        · exact Or.inr (Or.inl ⟨rfl, _, rfl, by simp⟩)
        · exact Or.inr (Or.inl ⟨rfl, _, rfl, by simp⟩)
        · cases hfits : verdict host (expire host s o.now o.sweepSaved).1 requested o.now
            (normalizeCeilings host ceilings) with
          | some refusal => exact Or.inr (Or.inl ⟨rfl, _, rfl, by simp⟩)
          | none => exact Or.inr (Or.inr ⟨rfl, requested, rfl, hfits, rfl⟩)

theorem live_of_failed_commit {m : Store τ} {other : Hold τ} {id : String}
    (h : existingLive (commit host m hold false).1 id = some other) : existingLive m id = some other := by
  have hstore : (commit host m hold false).1
    = ⟨AList.erase hold.request_id (m.byRequest.set hold.request_id hold)⟩ := rfl
  rw [hstore, existingLive_eq_some, lookup_erase_eq] at h
  split_ifs at h with hid
  · cases h.1
  · rw [lookup_set_ne _ _ hid] at h
    exact existingLive_eq_some.2 h

theorem forall₂_mem_right {α β : Type} {R : α → β → Prop} {xs : List α} {ys : List β} (h : List.Forall₂ R xs ys)
    {y : β} (hy : y ∈ ys) : ∃ x ∈ xs, R x y := by
  induction h with
  | nil => simp at hy
  | cons hxy _ ih =>
    rcases List.mem_cons.1 hy with rfl | hy
    · exact ⟨_, List.mem_cons_self, hxy⟩
    · obtain ⟨x, hx, hR⟩ := ih hy
      exact ⟨x, List.mem_cons_of_mem _ hx, hR⟩

theorem snapshot_ok {holds : List (PublicHold τ)} (h : (snapshot host s o).2 = .ok holds) (hrow : row ∈ holds) :
    ∃ id hold, existingLive (snapshot host s o).1 id = some hold ∧ hold.public host = .ok row := by
  rcases afterSweep_cases host s o (fun s =>
    (s, (s.byRequest.values.filter fun hold => hold.state = .OPEN ∨ hold.state = .CONSUMED).mapM (Hold.public host)))
    with ⟨fault, heq⟩ | ⟨-, heq⟩
  · rw [snapshot, heq] at h
    cases h
  · rw [snapshot, heq] at h ⊢
    obtain ⟨hold, hmem, hpublic⟩ := forall₂_mem_right (mapM_ok_iff.1 h) hrow
    rw [List.mem_filter, mem_values_iff] at hmem
    obtain ⟨⟨id, hlook⟩, hstate⟩ := hmem
    exact ⟨id, hold, existingLive_eq_some.2 ⟨hlook, by simpa using hstate⟩, hpublic⟩

theorem snapshot_live (s : Store τ) (o : Outside τ) {id : String}
    (hlive : existingLive (snapshot host s o).1 id = some hold) : existingLive s id = some hold := by
  have hswept := swept_expire host s o.now o.sweepSaved
  rcases afterSweep_cases host s o (fun s =>
    (s, (s.byRequest.values.filter fun hold => hold.state = .OPEN ∨ hold.state = .CONSUMED).mapM (Hold.public host)))
    with ⟨fault, heq⟩ | ⟨-, heq⟩
  all_goals
    rw [snapshot, heq] at hlive
    exact live_of_swept hswept hlive

theorem public_ok (h : hold.public host = .ok row) :
    row.request_id = hold.request_id ∧ row.reserved = hold.reserved ∧ row.state = hold.state
      ∧ (host.dated hold.created_at && host.dated hold.expires_at) = true := by
  unfold Hold.public at h
  by_cases hdated : (host.dated hold.created_at && host.dated hold.expires_at) = true
  · rw [if_pos hdated, Except.ok.injEq] at h
    subst h
    exact ⟨rfl, rfl, rfl, hdated⟩
  · rw [if_neg hdated] at h
    cases h

theorem consume_settles {hold : PublicHold τ} {released : Option ℤ} {shortfall : Option ℕ}
    (h : (consume host s requestId actual o).2 = .ok (.consumed hold idempotent released shortfall)) :
    ∃ hold, (consume host s requestId actual o).1.byRequest.lookup requestId = some hold ∧ hold.state = .CONSUMED := by
  rcases afterSweep_cases _ s o _ with ⟨fault, heq⟩ | ⟨-, heq⟩
  · rw [consume, heq] at h
    cases h
  · rw [consume, heq] at h ⊢
    cases hfound : (expire host s o.now o.sweepSaved).1.byRequest.lookup requestId with
    | none =>
      rw [hfound] at h
      simp at h
    | some old =>
      rw [hfound] at h
      dsimp only at h ⊢
      cases hstate : old.state <;> rw [hstate] at h <;> dsimp only at h ⊢
      case CONSUMED => exact ⟨old, hfound, hstate⟩
      case OPEN =>
        split_ifs at h ⊢
        exact ⟨_, lookup_set_self .., rfl⟩
      all_goals
        cases hpublic : old.public host <;> rw [hpublic] at h <;> cases h

end Live

/-! ## The invariant -/

variable {cfg : Config τ}

/-- What is known of a live hold whose dates can be read: its metadata says
    what was placed for it, and the amount is the one reserved. -/
def Known (w : World τ) (id : String) (hold : Hold τ) : Prop :=
  ∃ o e, w.origin.lookup id = some o ∧ w.svc.entries.lookup id = some e ∧ e.SamePayment o
    ∧ o.atomicAmount = hold.reserved

/-- What every reachable service keeps. -/
structure Inv (cfg : Config τ) (w : World τ) : Prop where
  keyed : ∀ id hold, existingLive w.svc.store id = some hold → hold.request_id = id
  known : ∀ id hold, existingLive w.svc.store id = some hold →
    (cfg.host.dated hold.created_at && cfg.host.dated hold.expires_at) = true → Known w id hold

theorem inv_empty : Inv cfg (emptyWorld : World τ) where
  keyed := by
    intro id hold h
    simp [existingLive_eq_some, emptyWorld, emptyService, emptyStore] at h
  known := by
    intro id hold h
    simp [existingLive_eq_some, emptyWorld, emptyService, emptyStore] at h

variable {a : Accepted} {m : Meets τ} {body : PlaceBody} {receipt : Receipt τ} {r : Request × Meets τ}
  {svc : Service τ} {w : World τ}

/-- A change that makes nothing live and keeps the metadata keeps the invariant. -/
theorem Inv.shrink {w' : World τ} (hi : Inv cfg w) (horigin : w'.origin = w.origin)
    (hentries : w'.svc.entries = w.svc.entries) (hlive : ∀ id hold', existingLive w'.svc.store id = some hold' →
      ∃ old, existingLive w.svc.store id = some old ∧ Kin old hold') : Inv cfg w' where
  keyed := by
    intro id hold' h
    obtain ⟨old, hold, hkin⟩ := hlive id hold' h
    rw [hkin.1]
    exact hi.keyed id old hold
  known := by
    intro id hold' h hdated
    obtain ⟨old, hold, -, hreserved, hcreated, hexpires⟩ := hlive id hold' h
    rw [hcreated, hexpires] at hdated
    obtain ⟨o, e, ho, he, hsame, hamount⟩ := hi.known id old hold hdated
    exact ⟨o, e, by rw [horigin]; exact ho, by rw [hentries]; exact he, hsame, by rw [hreserved]; exact hamount⟩

/-! ## A place call -/

theorem checkPlace_ok (h : checkPlace cfg body = .ok a) : a.requestId ≠ "" := by
  unfold checkPlace at h
  dsimp only at h
  split at h
  · cases h
  · split_ifs at h with hid
    split at h
    · cases h
    · split at h
      · cases h
      · split at h
        · cases h
        · split at h
          · cases h
          · split_ifs at h
            cases h
            exact fun hempty => hid (Or.inl hempty)

theorem noteEntry_lookup (svc : Service τ) (requestId : String) (entry : Entry) (m : Meets τ) (response : Response τ)
    (id : String) : (noteEntry svc requestId entry m response).1.entries.lookup id
      = if id = requestId then some ((svc.entries.lookup requestId).getD entry) else svc.entries.lookup id := by
  unfold noteEntry
  split_ifs with hmem hid hid
  · obtain ⟨e, he⟩ := Option.isSome_iff_exists.1 (AList.lookup_isSome.2 hmem)
    rw [hid, he]
    rfl
  · rfl
  · rw [hid, lookup_set_self, AList.lookup_eq_none.2 hmem]
    rfl
  · rw [lookup_set_ne _ _ hid]

@[simp] theorem noteEntry_store (svc : Service τ) (requestId : String) (entry : Entry) (m : Meets τ)
    (response : Response τ) : (noteEntry svc requestId entry m response).1.store = svc.store := by
  unfold noteEntry
  split_ifs <;> rfl

@[simp] theorem noteEntry_receipts (svc : Service τ) (requestId : String) (entry : Entry) (m : Meets τ)
    (response : Response τ) : (noteEntry svc requestId entry m response).1.receipts = svc.receipts := by
  unfold noteEntry
  split_ifs <;> rfl

theorem noteEntry_keeps {id : String} {e : Entry} (he : svc.entries.lookup id = some e) (requestId : String)
    (entry : Entry) (m : Meets τ) (response : Response τ) :
    (noteEntry svc requestId entry m response).1.entries.lookup id = some e := by
  rw [noteEntry_lookup]
  split_ifs with hid
  · rw [← hid, he]
    rfl
  · exact he

/-- The store a place call leaves, with the metadata it keeps. -/
theorem place_store (h : checkPlace cfg body = .ok a) (svc : Service τ) (m : Meets τ) :
    (place cfg svc body m).1.store = (reservePlace cfg svc a m.first).1
      ∧ ∀ id e, svc.entries.lookup id = some e → (place cfg svc body m).1.entries.lookup id = some e := by
  unfold place
  rw [h]
  dsimp only
  split
  · exact ⟨rfl, fun _ _ he => he⟩
  · refine ⟨noteEntry_store .., fun id e he => ?_⟩
    refine noteEntry_keeps ?_ ..
    exact he
  · refine ⟨noteEntry_store .., fun id e he => ?_⟩
    refine noteEntry_keeps ?_ ..
    exact he
  · exact ⟨rfl, fun _ _ he => he⟩
  · exact ⟨rfl, fun _ _ he => he⟩

theorem place_receipts (body : PlaceBody) (svc : Service τ) (m : Meets τ) :
    (place cfg svc body m).1.receipts = svc.receipts := by
  unfold place
  split
  · rfl
  · dsimp only
    split
    · rfl
    · exact noteEntry_receipts ..
    · exact noteEntry_receipts ..
    · rfl
    · rfl

theorem place_notes (h : checkPlace cfg body = .ok a) {hold : PublicHold τ}
    (hreply : (reservePlace cfg svc a m.first).2 = .ok (.held hold idempotent)) :
    (place cfg svc body m).1.entries.lookup a.requestId = some ((svc.entries.lookup a.requestId).getD a.entry) := by
  unfold place
  rw [h]
  dsimp only
  rw [hreply]
  dsimp only
  rw [noteEntry_lookup, if_pos rfl]

/-- A place call that makes no hold live keeps the invariant. -/
theorem inv_place_kept (hi : Inv cfg w) (ha : checkPlace cfg body = .ok a)
    (hlive : ∀ id hold, existingLive (reservePlace cfg w.svc a m.first).1 id = some hold →
      existingLive (sweptStore cfg w.svc m) id = some hold) : Inv cfg (next cfg w (.place body, m)) := by
  obtain ⟨hplace, hentries⟩ := place_store ha w.svc m
  have hcreates : createsHold cfg w.svc a m = false := by
    unfold createsHold
    cases hafter : existingLive (reservePlace cfg w.svc a m.first).1 a.requestId with
    | none => simp
    | some hold =>
      rw [hlive a.requestId hold hafter]
      rfl
  have horigin : originAfter cfg w m (.place body) = w.origin := by
    simp [originAfter, ha, hcreates]
  have hback : ∀ id hold, existingLive (next cfg w (.place body, m)).svc.store id = some hold →
      existingLive w.svc.store id = some hold := by
    intro id hold h
    have heq : (next cfg w (.place body, m)).svc.store = (reservePlace cfg w.svc a m.first).1 := hplace
    rw [heq] at h
    exact live_of_swept (swept_expire _ w.svc.store m.first.now m.first.sweepSaved) (hlive id hold h)
  constructor
  · intro id hold h
    exact hi.keyed id hold (hback id hold h)
  · intro id hold h hdated
    obtain ⟨o, e, ho, he, hrest⟩ := hi.known id hold (hback id hold h) hdated
    exact ⟨o, e, by rw [← horigin] at ho; exact ho, hentries id e he, hrest⟩

/-- A hold a place call creates is known: its metadata is noted now or was the same before. -/
theorem inv_place_created (hi : Inv cfg w) (ha : checkPlace cfg body = .ok a)
    (hcond : SameAsFirst cfg w (.place body, m)) (hnone : existingLive (sweptStore cfg w.svc m) a.requestId = none)
    (hfits : verdict cfg.host (sweptStore cfg w.svc m) a.entry.atomicAmount m.first.now
      (normalizeCeilings cfg.host [funderCeiling a]) = none) (hsaved : m.first.saved = true)
    (hreserve : reservePlace cfg w.svc a m.first = commit cfg.host (sweptStore cfg w.svc m)
      (newHold cfg.host a.requestId a.entry.atomicAmount (normalizeCeilings cfg.host [funderCeiling a])
        m.first.now m.first.uuid) true) : Inv cfg (next cfg w (.place body, m)) := by
  generalize hhold : newHold cfg.host a.requestId a.entry.atomicAmount (normalizeCeilings cfg.host [funderCeiling a])
    m.first.now m.first.uuid = hold at hreserve
  have hnew : hold.request_id = a.requestId ∧ hold.state = .OPEN ∧ hold.reserved = a.entry.atomicAmount
      ∧ hold.created_at = m.first.now ∧ hold.expires_at = cfg.host.expiry m.first.now := by
    rw [← hhold]
    exact ⟨rfl, rfl, rfl, rfl, rfl⟩
  obtain ⟨hid, hopen, hamount, hcreated, hexpires⟩ := hnew
  have hstore : (next cfg w (.place body, m)).svc.store
      = ⟨(sweptStore cfg w.svc m).byRequest.set a.requestId hold⟩ := by
    have hplace : (next cfg w (.place body, m)).svc.store = (reservePlace cfg w.svc a m.first).1 :=
      (place_store ha w.svc m).1
    rw [hplace, hreserve, ← hid]
    rfl
  have hlivenew : existingLive (⟨(sweptStore cfg w.svc m).byRequest.set a.requestId hold⟩ : Store τ) a.requestId
      = some hold :=
    existingLive_eq_some.2 ⟨lookup_set_self .., Or.inl hopen⟩
  have horigin : (next cfg w (.place body, m)).origin = w.origin.set a.requestId a.entry := by
    have hcreates : createsHold cfg w.svc a m = true := by
      unfold createsHold
      rw [hnone, hreserve]
      simp only [commit, hid, if_true, Option.isNone_none, Bool.true_and]
      rw [hlivenew]
      rfl
    simp only [next, originAfter, ha, hcreates, if_true]
  constructor
  · intro id other h
    rw [hstore] at h
    by_cases hsame : id = a.requestId
    · subst hsame
      rw [hlivenew, Option.some.injEq] at h
      rw [← h, hid]
    · rw [existingLive_set_ne _ hsame] at h
      exact hi.keyed id other (live_of_swept (swept_expire _ w.svc.store m.first.now m.first.sweepSaved) h)
  · intro id other h hdated
    rw [hstore] at h
    by_cases hsame : id = a.requestId
    · subst hsame
      rw [hlivenew, Option.some.injEq] at h
      subst h
      obtain ⟨row, hrow⟩ : ∃ row, hold.public cfg.host = .ok row := by
        unfold Hold.public
        rw [if_pos hdated]
        exact ⟨_, rfl⟩
      have hreply : (reservePlace cfg w.svc a m.first).2 = .ok (.held row false) := by
        rw [hreserve]
        simp only [commit, if_true, hrow]
        rfl
      have hnoted : (next cfg w (.place body, m)).svc.entries.lookup a.requestId
          = some ((w.svc.entries.lookup a.requestId).getD a.entry) := place_notes ha hreply
      have hcond' : ∀ e ∈ w.svc.entries.lookup a.requestId, e.SamePayment a.entry := by
        exact hcond a ha hnone hfits hsaved (by rwa [hcreated, hexpires] at hdated)
      refine ⟨a.entry, _, by rw [horigin, lookup_set_self], hnoted, ?_, hamount.symm⟩
      cases hprior : w.svc.entries.lookup a.requestId with
      | none => exact ⟨rfl, rfl, rfl, rfl⟩
      | some e => exact hcond' e hprior
    · rw [existingLive_set_ne _ hsame] at h
      obtain ⟨o, e, ho, he, hrest⟩ := hi.known id other
        (live_of_swept (swept_expire _ w.svc.store m.first.now m.first.sweepSaved) h) hdated
      exact ⟨o, e, by rw [horigin, lookup_set_ne _ _ hsame]; exact ho, (place_store ha w.svc m).2 id e he, hrest⟩

theorem inv_place (hi : Inv cfg w) (hcond : SameAsFirst cfg w (.place body, m)) :
    Inv cfg (next cfg w (.place body, m)) := by
  cases ha : checkPlace cfg body with
  | error refusal =>
    have hsame : next cfg w (.place body, m) = w := by
      simp [next, exec, place, originAfter, ha]
    rw [hsame]
    exact hi
  | ok a =>
    have hunchanged : (reservePlace cfg w.svc a m.first).1 = sweptStore cfg w.svc m →
        Inv cfg (next cfg w (.place body, m)) := by
      intro hstore
      refine inv_place_kept hi ha fun id hold h => ?_
      rwa [hstore] at h
    rcases reserve_cases cfg.host w.svc.store (checkPlace_ok ha) (.bigint a.entry.atomicAmount)
      [funderCeiling a] m.first rfl with
      ⟨fault, heq⟩ | ⟨live, -, heq⟩ | ⟨-, reply, heq, -⟩ | ⟨hnone, requested, hparse, hfits, heq⟩
    · exact hunchanged (congrArg Prod.fst heq)
    · exact hunchanged (congrArg Prod.fst heq)
    · exact hunchanged (congrArg Prod.fst heq)
    · have hrequested : requested = a.entry.atomicAmount := by
        simpa [parseAtomic] using hparse.symm
      subst hrequested
      cases hsaved : m.first.saved with
      | true =>
        rw [hsaved] at heq
        exact inv_place_created hi ha hcond hnone hfits hsaved heq
      | false =>
        -- the failed save deleted the id, and whatever stood there was not live
        rw [hsaved] at heq
        refine inv_place_kept hi ha fun id hold h => ?_
        unfold reservePlace at h
        rw [heq] at h
        exact live_of_failed_commit h

/-! ## The other requests -/

variable (cfg) in
theorem settleHold_store (svc : Service τ) (requestId : String) (hold : PublicHold τ)
    (body : SettleBody) (m : Meets τ) :
    (settleHold cfg svc requestId hold body m).1.store = svc.store
      ∧ (settleHold cfg svc requestId hold body m).1.entries = svc.entries := by
  unfold settleHold
  split <;> exact ⟨rfl, rfl⟩

variable (cfg) in
/-- A settle makes nothing live and leaves the metadata alone. -/
theorem settleRoute_store (svc : Service τ) (requestId : String) (body : SettleBody) (m : Meets τ) :
    (settleRoute cfg svc requestId body m).1.entries = svc.entries
      ∧ ∀ id hold', existingLive (settleRoute cfg svc requestId body m).1.store id = some hold' →
        ∃ old, existingLive svc.store id = some old ∧ Kin old hold' := by
  have hsnap : ∀ id hold', existingLive (snapshot cfg.host svc.store m.first).1 id = some hold' →
      ∃ old, existingLive svc.store id = some old ∧ Kin old hold' :=
    fun id hold' h => ⟨hold', snapshot_live svc.store m.first h, Kin.refl hold'⟩
  have hused : ∀ actual id hold', existingLive
    (consume cfg.host (snapshot cfg.host svc.store m.first).1 requestId actual
      m.second).1 id = some hold' → ∃ old, existingLive svc.store id = some old ∧ Kin old hold' := by
    intro actual id hold' h
    obtain ⟨old, hold, hkin⟩ := consume_live _ requestId actual m.second h
    exact ⟨old, snapshot_live svc.store m.first hold, hkin⟩
  unfold settleRoute
  cases svc.receipts.lookup requestId with
  | some cached => exact ⟨rfl, fun id hold' h => ⟨hold', h, Kin.refl hold'⟩⟩
  | none =>
    dsimp only
    split
    · exact ⟨rfl, hsnap⟩
    · split
      · exact ⟨rfl, hsnap⟩
      · split_ifs
        · split
          · exact ⟨rfl, hused _⟩
          · obtain ⟨hstore, hentries⟩ := settleHold_store cfg _ requestId _ body m
            rw [hstore, hentries]
            exact ⟨rfl, hused _⟩
          · exact ⟨rfl, hused _⟩
          · exact ⟨rfl, hused _⟩
        · obtain ⟨hstore, hentries⟩ := settleHold_store cfg _ requestId _ body m
          rw [hstore, hentries]
          exact ⟨rfl, hsnap⟩
        · exact ⟨rfl, hsnap⟩

variable (cfg) in
theorem listRoute_store (svc : Service τ) (funder : String) (m : Meets τ) :
    (listRoute cfg svc funder m).1.entries = svc.entries ∧ (listRoute cfg svc funder m).1.receipts = svc.receipts
      ∧ ∀ id hold, existingLive (listRoute cfg svc funder m).1.store id = some hold →
        existingLive svc.store id = some hold := by
  unfold listRoute
  split
  · exact ⟨rfl, rfl, fun _ _ h => h⟩
  · dsimp only
    split_ifs
    · split <;> exact ⟨rfl, rfl, fun id hold h => snapshot_live svc.store m.first h⟩
    · exact ⟨rfl, rfl, fun _ _ h => h⟩

theorem releaseRoute_svc (svc : Service τ) (requestId : String) (m : Meets τ) :
    (releaseRoute cfg svc requestId m).1 = { svc with store := (release cfg.host svc.store requestId m.first).1 } := by
  unfold releaseRoute
  dsimp only
  split <;> rfl

theorem expireDue_live (s : Store τ) (o : Outside τ) {id : String}
    (hlive : existingLive (expireDue cfg.host s o).1 id = some hold) : existingLive s id = some hold := by
  have hswept := swept_expire cfg.host s o.now o.sweepSaved
  rcases afterSweep_cases cfg.host s o (fun s => (s, Except.ok (Reply.swept : Reply τ)))
    with ⟨fault, heq⟩ | ⟨-, heq⟩
  all_goals
    rw [expireDue, heq] at hlive
    exact live_of_swept hswept hlive

/-- **STEP**: a request that meets the condition keeps the invariant. -/
theorem next_inv (hi : Inv cfg w) (hcond : SameAsFirst cfg w r) : Inv cfg (next cfg w r) := by
  obtain ⟨request, m⟩ := r
  cases request with
  | place body => exact inv_place hi hcond
  | release requestId =>
    refine hi.shrink rfl ?_ fun id hold' h => ⟨hold', ?_, Kin.refl hold'⟩
    · simp only [next, exec, releaseRoute_svc]
    · simp only [next, exec, releaseRoute_svc] at h
      exact release_live w.svc.store requestId m.first h
  | settle requestId body =>
    obtain ⟨hentries, hlive⟩ := settleRoute_store cfg w.svc requestId body m
    exact hi.shrink rfl hentries hlive
  | list funder =>
    obtain ⟨hentries, -, hlive⟩ := listRoute_store cfg w.svc funder m
    exact hi.shrink rfl hentries fun id hold' h => ⟨hold', hlive id hold' h, Kin.refl hold'⟩
  | expire =>
    exact hi.shrink rfl rfl fun id hold' h => ⟨hold', expireDue_live w.svc.store m.first h, Kin.refl hold'⟩

/-! ## Receipts -/

/-- A receipt that is signed is kept under its id, and says what the id's metadata says. -/
theorem settleHold_signs (svc : Service τ) {hold : PublicHold τ} {body : SettleBody} {id : String}
    (hnone : svc.receipts.lookup id = none)
    (h : (settleHold cfg svc requestId hold body m).1.receipts.lookup id = some receipt) :
    id = requestId ∧ receipt.payment.gross_amount = hold.reserved ∧ receipt.payment.settled_amount = hold.reserved
      ∧ receipt.payment.network = bookNetwork (((svc.entries.lookup requestId).map Entry.network).getD "base-sepolia")
      ∧ receipt.payment.asset = ((svc.entries.lookup requestId).map Entry.asset).getD BASE_SEPOLIA_USDC
      ∧ receipt.payment.payee = (svc.entries.lookup requestId).map Entry.payTo := by
  unfold settleHold at h
  cases hissue : issueReceipt cfg svc requestId hold body m with
  | error refusal =>
    rw [hissue] at h
    dsimp only at h
    rw [hnone] at h
    cases h
  | ok signed =>
    rw [hissue] at h
    dsimp only at h
    rw [lookup_set] at h
    split_ifs at h with hid
    · rw [Option.some.injEq] at h
      subst h
      refine ⟨hid, ?_⟩
      unfold issueReceipt at hissue
      dsimp only at hissue
      split_ifs at hissue
      split at hissue
      · cases hissue
      · split at hissue
        · cases hissue
        · split_ifs at hissue
          split at hissue
          · cases hissue
          · cases hissue
            exact ⟨rfl, rfl, rfl, rfl, rfl⟩
    · rw [hnone] at h
      cases h

/-- A receipt signed for a known hold that was settled carries what was placed for it. -/
theorem carries_of_signed {store : Store τ} {id : String} {after : Hold τ} {body : SettleBody}
    (hspelled : ∀ e ∈ w.svc.entries.lookup requestId, bookNetwork e.network = e.network)
      (hknown : Known w requestId hold) (hamount : row.reserved = hold.reserved)
    (hafter : store.byRequest.lookup requestId = some after) (hsettled : after.state = .CONSUMED)
    (hnone : w.svc.receipts.lookup id = none)
    (h : (settleHold cfg ⟨store, w.svc.entries, w.svc.receipts, w.svc.taskIndex⟩ requestId row body m).1.receipts.lookup
      id = some receipt) : ∃ o hold, w.origin.lookup id = some o
      ∧ (settleHold cfg ⟨store, w.svc.entries, w.svc.receipts, w.svc.taskIndex⟩
        requestId row body m).1.store.byRequest.lookup
        id = some hold ∧ hold.state = .CONSUMED ∧ receipt.payment.Carries o := by
  obtain ⟨rfl, hgross, hsettledAmount, hnetwork, hasset, hpayee⟩ :=  settleHold_signs ⟨store, _, _, _⟩ hnone h
  obtain ⟨o, e, ho, he, hsame, hreserved⟩ := hknown
  dsimp only at hnetwork hasset hpayee
  rw [he] at hnetwork hasset hpayee
  refine ⟨o, after, ho, ?_, hsettled, ?_, ?_, ?_, ?_, ?_⟩
  · rw [(settleHold_store cfg ..).1]
    exact hafter
  · rw [hgross, hamount, hreserved]
  · rw [hsettledAmount, hamount, hreserved]
  · rw [hasset, ← hsame.2.1]
    rfl
  · rw [hnetwork, ← hsame.2.2.1]
    exact hspelled e he
  · rw [hpayee, ← hsame.2.2.2]
    rfl

/-- **What a settle signs**: a receipt for the hold it settles, carrying what was placed for it. -/
theorem settleRoute_signs {body : SettleBody} {id : String} (hi : Inv cfg w) (hspelled : SpelledAsBooked w requestId)
    (hnone : w.svc.receipts.lookup id = none)
    (h : (settleRoute cfg w.svc requestId body m).1.receipts.lookup id = some receipt) :
    ∃ o hold, w.origin.lookup id = some o
      ∧ (settleRoute cfg w.svc requestId body m).1.store.byRequest.lookup id = some hold
      ∧ hold.state = .CONSUMED ∧ receipt.payment.Carries o := by
  unfold settleRoute at h ⊢
  cases hcached : w.svc.receipts.lookup requestId with
  | some cached =>
    rw [hcached] at h
    dsimp only at h
    rw [hnone] at h
    cases h
  | none =>
    rw [hcached] at h
    dsimp only at h ⊢
    cases hsnap : (snapshot cfg.host w.svc.store m.first).2 with
    | error fault =>
      rw [hsnap] at h
      dsimp only at h
      rw [hnone] at h
      cases h
    | ok holds =>
      rw [hsnap] at h
      dsimp only at h ⊢
      cases hfind : holds.find? fun row => row.request_id = requestId with
      | none =>
        rw [hfind] at h
        dsimp only at h
        rw [hnone] at h
        cases h
      | some row =>
        rw [hfind] at h
        dsimp only at h ⊢
        have hrow : row.request_id = requestId := by
          simpa using List.find?_some hfind
        obtain ⟨key, hold, hlive, hpublic⟩ := snapshot_ok hsnap (List.mem_of_find?_eq_some hfind)
        obtain ⟨hname, hamount, hstate, hdated⟩ := public_ok hpublic
        have hbefore := snapshot_live w.svc.store m.first hlive
        have hkey : key = requestId := by
          rw [← hrow, hname]
          exact (hi.keyed key hold hbefore).symm
        subst hkey
        have hknown := hi.known key hold hbefore hdated
        generalize (snapshot cfg.host w.svc.store m.first).1 = store at h hlive ⊢
        split_ifs at h ⊢ with hopen hused
        · cases hconsume : (consume cfg.host store key (.bigint row.reserved) m.second).2 with
          | error fault =>
            rw [hconsume] at h
            dsimp only at h
            rw [hnone] at h
            cases h
          | ok reply =>
            rw [hconsume] at h
            cases reply with
            | consumed settled idempotent released shortfall =>
              dsimp only at h ⊢
              obtain ⟨after, hafter, hsettled⟩ := consume_settles hconsume
              generalize (consume cfg.host store key (.bigint row.reserved) m.second).1 = store' at h hafter ⊢
              exact carries_of_signed (hspelled hcached) hknown hamount hafter hsettled hnone h
            | _ =>
              dsimp only at h
              rw [hnone] at h
              cases h
        · have hafter := (existingLive_eq_some.1 hlive).1
          have hsettled : hold.state = .CONSUMED := hstate.symm.trans hused
          exact carries_of_signed (hspelled hcached) hknown hamount hafter hsettled hnone h
        · dsimp only at h
          rw [hnone] at h
          cases h

theorem exec_signs {request : Request} {id : String} (hnone : svc.receipts.lookup id = none)
    (h : (exec cfg svc m request).1.receipts.lookup id = some receipt) :
    ∃ requestId body, request = .settle requestId body := by
  cases request with
  | settle requestId body => exact ⟨requestId, body, rfl⟩
  | place body =>
    simp only [exec, place_receipts] at h
    rw [hnone] at h
    cases h
  | release requestId =>
    simp only [exec, releaseRoute_svc] at h
    rw [hnone] at h
    cases h
  | list funder =>
    simp only [exec, (listRoute_store cfg ..).2.1] at h
    rw [hnone] at h
    cases h
  | expire =>
    simp only [exec] at h
    rw [hnone] at h
    cases h

theorem settleHold_receipts {hold : PublicHold τ} {body : SettleBody} {id : String}
    (hfree : svc.receipts.lookup requestId = none) (h : svc.receipts.lookup id = some receipt) :
    (settleHold cfg svc requestId hold body m).1.receipts.lookup id = some receipt := by
  unfold settleHold
  split
  · exact h
  · dsimp only
    rw [lookup_set_ne]
    · exact h
    · rintro rfl
      rw [hfree] at h
      cases h

/-- A receipt stays as it was signed. -/
theorem exec_receipts (m : Meets τ) (request : Request) {id : String} (h : svc.receipts.lookup id = some receipt) :
    (exec cfg svc m request).1.receipts.lookup id = some receipt := by
  cases request with
  | place body =>
    simp only [exec, place_receipts]
    exact h
  | release requestId =>
    simp only [exec, releaseRoute_svc]
    exact h
  | list funder =>
    simp only [exec, (listRoute_store cfg ..).2.1]
    exact h
  | expire => exact h
  | settle requestId body =>
    dsimp only [exec, settleRoute]
    cases hcached : svc.receipts.lookup requestId with
    | some cached => exact h
    | none =>
      dsimp only
      split
      · exact h
      · split
        · exact h
        · split_ifs
          · split
            · exact h
            · refine settleHold_receipts ?_ ?_
              · exact hcached
              · exact h
            · exact h
            · exact h
          · refine settleHold_receipts ?_ ?_
            · exact hcached
            · exact h
          · exact h

/-! ## Runs that meet the condition -/

theorem SameAsFirstRun.split {before after : List (Request × Meets τ)}
    (h : SameAsFirstRun cfg w (before ++ r :: after)) :
    SameAsFirstRun cfg w before ∧ SameAsFirst cfg (run (next cfg) w before) r := by
  induction before generalizing w with
  | nil => exact ⟨trivial, h.1⟩
  | cons first rest ih =>
    obtain ⟨hrest, hlast⟩ := ih h.2
    exact ⟨⟨h.1, hrest⟩, hlast⟩

/-- **RUN**: the invariant holds all along a run that meets the condition. -/
theorem inv_run (hi : Inv cfg w) {requests : List (Request × Meets τ)} (hcond : SameAsFirstRun cfg w requests) :
    Inv cfg (run (next cfg) w requests) := by
  induction requests generalizing w with
  | nil => exact hi
  | cons r rest ih => exact ih (next_inv hi hcond.1) hcond.2

/-- A listed row shows a hold the store has live, and what the metadata says of its id. -/
theorem listRoute_row {funder : String} {rows : List Row} {status : FunderStatus}
    (h : (listRoute cfg svc funder m).2.body = .list rows status) {row : Row} (hrow : row ∈ rows) :
    ∃ id hold e, existingLive (listRoute cfg svc funder m).1.store id = some hold ∧ row.request_id = hold.request_id
      ∧ (cfg.host.dated hold.created_at && cfg.host.dated hold.expires_at) = true
      ∧ svc.entries.lookup row.request_id = some e ∧ row.Carries e := by
  unfold listRoute at h ⊢
  cases hfunder : normalizeFunder cfg funder with
  | none =>
    rw [hfunder] at h
    cases h
  | some funder =>
    rw [hfunder] at h
    dsimp only at h ⊢
    split_ifs at h ⊢ with hcap
    · cases hsnap : (snapshot cfg.host svc.store m.first).2 with
      | error fault =>
        rw [hsnap] at h
        cases fault <;> cases h
      | ok holds =>
        rw [hsnap] at h
        dsimp only at h ⊢
        rw [Body.list.injEq] at h
        rw [← h.1, List.mem_filterMap] at hrow
        obtain ⟨shown, hshown, hrow⟩ := hrow
        obtain ⟨id, hold, hlive, hpublic⟩ := snapshot_ok hsnap hshown
        obtain ⟨hname, -, -, hdated⟩ := public_ok hpublic
        unfold listRow at hrow
        split_ifs at hrow
        rw [Option.map_eq_some_iff] at hrow
        obtain ⟨e, he, rfl⟩ := hrow
        exact ⟨id, hold, e, hlive, hname, hdated, he, rfl, rfl, rfl, rfl⟩
    · cases h

/-- **Metadata follows the hold** in every run whose place calls, where they are
    granted a hold under an id seen before, pay what was first placed there, and
    whose settles find the network by the book's short name. -/
theorem followsHold_of_sameAsFirst (requests : List (Request × Meets τ))
    (hcond : SameAsFirstRun cfg emptyWorld requests) : FollowsHold cfg requests where
  receipt := by
    rintro before r after id receipt rfl ⟨hnone, hsigned⟩
    have hi := inv_run inv_empty hcond.split.1
    have hspelled := hcond.split.2
    rw [Trace.run_concat] at hsigned ⊢
    generalize run (next cfg) emptyWorld before = w at hi hspelled hnone hsigned ⊢
    obtain ⟨request, m⟩ := r
    obtain ⟨requestId, body, rfl⟩ := exec_signs hnone hsigned
    exact settleRoute_signs hi hspelled hnone hsigned
  row := by
    rintro before m after funder rows status row rfl hbody hrow
    have hi := inv_run inv_empty hcond.split.1
    rw [Trace.run_concat]
    generalize run (next cfg) emptyWorld before = w at hi hbody ⊢
    obtain ⟨id, hold, e, hlive, hname, hdated, he, hcarries⟩ := listRoute_row hbody hrow
    have hbefore := (listRoute_store cfg w.svc funder m).2.2 id hold hlive
    have hid : id = row.request_id := by
      rw [hname]
      exact (hi.keyed id hold hbefore).symm
    subst hid
    obtain ⟨o, e', ho, he', hsame, -⟩ := hi.known _ hold hbefore hdated
    rw [he, Option.some.injEq] at he'
    subst he'
    obtain ⟨hamount, hasset, hnetwork, hpayTo⟩ := hcarries
    exact ⟨o, hold, ho, hlive, hamount.trans hsame.1, hasset.trans hsame.2.1, hnetwork.trans hsame.2.2.1,
      hpayTo.trans hsame.2.2.2⟩
  once := by
    rintro before r after id receipt rfl hold
    rw [Trace.run_concat]
    exact exec_receipts r.2 r.1 hold

instance [DecidableEq τ] (w : World τ) (m : Meets τ) (a : Accepted) : Decidable (PaysAsFirst cfg w m a) :=
  inferInstanceAs (Decidable (_ → _))

instance (w : World τ) (requestId : String) : Decidable (SpelledAsBooked w requestId) :=
  inferInstanceAs (Decidable (_ → _))

instance [DecidableEq τ] (w : World τ) (r : Request × Meets τ) : Decidable (SameAsFirst cfg w r) :=
  match r with
  | (.place body, m) =>
    match h : checkPlace cfg body with
    | .ok a => decidable_of_iff (PaysAsFirst cfg w m a) (by simp [SameAsFirst, h])
    | .error _ => isTrue (by simp [SameAsFirst, h])
  | (.settle requestId _, _) => inferInstanceAs (Decidable (SpelledAsBooked w requestId))
  | (.release _, _) | (.list _, _) | (.expire, _) => isTrue trivial

def decideSameAsFirstRun [DecidableEq τ] (w : World τ) :
    (requests : List (Request × Meets τ)) → Decidable (SameAsFirstRun cfg w requests)
  | [] => isTrue trivial
  | r :: rest =>
    have := decideSameAsFirstRun (next cfg w r) rest
    inferInstanceAs (Decidable (SameAsFirst cfg w r ∧ SameAsFirstRun cfg (next cfg w r) rest))

instance [DecidableEq τ] (w : World τ) (requests : List (Request × Meets τ)) :
    Decidable (SameAsFirstRun cfg w requests) :=
  decideSameAsFirstRun w requests

/-! ## Two life cycles of one id -/

def sampleFunder : String := "0x1111111111111111111111111111111111111111"

def samplePayee : String := "0x2222222222222222222222222222222222222222"

def otherPayee : String := "0x3333333333333333333333333333333333333333"

/-- Millisecond clocks with a TTL of ten minutes, and one funder with a cap of 100. -/
def sampleConfig : Config ℤ where
  host := millisHost 600000 id
  caps := AList.insert sampleFunder 100 ∅
  parseUrl _ := some ⟨"https:", "shop.test", "shop.test", "/tool", "https://shop.test/tool"⟩
  verifyUrl taskId := "https://hub.test/verify/" ++ taskId

def samplePlace (amount : ℤ) (payTo : String) : Request :=
  .place ⟨"order-1", .bigint amount, sampleFunder, "base-sepolia", BASE_SEPOLIA_USDC, payTo, some 7⟩

def sampleSettle : Request :=
  .settle "order-1"
    ⟨"0x0000000000000000000000000000000000000000000000000000000000000001", sampleFunder, "https://shop.test/tool", none⟩

def sampleMeets (now : ℤ) : Meets ℤ where
  first := ⟨now, true, true, "h"⟩
  second := ⟨now, true, true, "h"⟩
  metaSaved := .ok ()
  signed := .ok "jws"
  taskUuid := "t"

/-- An id that is placed, released, placed again for `payTo`, listed and settled. -/
def placedTwice (payTo : String) : List (Request × Meets ℤ) :=
  [ (samplePlace 60 samplePayee, sampleMeets 0),
    (.release "order-1", sampleMeets 10),
    (samplePlace 60 payTo, sampleMeets 20),
    (.list sampleFunder, sampleMeets 30),
    (sampleSettle, sampleMeets 40) ]

theorem followsHold_placedTwice : FollowsHold sampleConfig (placedTwice samplePayee) :=
  followsHold_of_sameAsFirst (placedTwice samplePayee) (by decide +kernel)

/-- **The receipt names the first payee** when the second life of the id pays another. -/
theorem stale_payee_signed : ¬ FollowsHold sampleConfig (placedTwice otherPayee) := by
  intro h
  let before := (placedTwice otherPayee).take 4
  let signed := run (next sampleConfig) emptyWorld (before ++ [(sampleSettle, sampleMeets 40)])
  have hrun : (signed.svc.receipts.lookup "order-1").map (·.payment.payee) = some (some samplePayee)
      ∧ (signed.origin.lookup "order-1").map Entry.payTo = some otherPayee
      ∧ ((run (next sampleConfig) emptyWorld before).svc.receipts.lookup "order-1").isNone = true := by
    decide +kernel
  obtain ⟨hpayee, hplaced, hnone⟩ := hrun
  obtain ⟨receipt, hreceipt, hnamed⟩ := Option.map_eq_some_iff.1 hpayee
  obtain ⟨o, hold, ho, -, -, hcarries⟩ :=
    h.receipt before _ [] "order-1" receipt rfl ⟨Option.isNone_iff_eq_none.1 hnone, hreceipt⟩
  obtain ⟨o', ho', hpaid⟩ := Option.map_eq_some_iff.1 hplaced
  have hsame : o' = o := Option.some.inj (ho'.symm.trans ho)
  have hstale : some samplePayee = some otherPayee := by
    rw [← hnamed, ← hpaid, hsame]
    exact hcarries.2.2.2.2
  exact absurd hstale (by decide)

end SpendHoldApi
