import Chit402.GatewayInclusionProofs
import Chit402.NumberTextProofs
import Chit402.OrderedMapProofs
import Chit402.TraceProofs
import Mathlib.Data.Nat.Digits.Lemmas

/-! # Acts under a session

    An agent proves a privileged act with a signature over a nonce and a deadline.
    The nonce comes with a challenge that the store issued, or from the client, and
    one set keeps the spent ones of both kinds with the spent challenges. -/

namespace SessionAct

open ExceptFlow OrderedMap

/-! ## Values -/

abbrev Text := List Char

/-- A value of a request, as far as the checks read it. -/
inductive Value where
  | undefined
  | null
  | string (s : Text)
  | other (shown : Text) (truthy : Bool) (number : Option ℚ)
  deriving DecidableEq

/-- `value == null` -/
def nullish : Value → Bool
  | .undefined | .null => true
  | _ => false

def truthy : Value → Bool
  | .undefined | .null => false
  | .string s => s ≠ []
  | .other _ t _ => t

/-- `String(value)` -/
def shown : Value → Text
  | .undefined => "undefined".toList
  | .null => "null".toList
  | .string s | .other s _ _ => s

@[simp] theorem shown_string (s : Text) : shown (.string s) = s := rfl

@[simp] theorem truthy_null : truthy .null = false := rfl

/-- `a || b` -/
def either (a b : Value) : Value := if truthy a then a else b

def numberValue (n : ℤ) : Value := .other (toString n).toList (n ≠ 0) (some n)

/-- `a ?? b` -/
def coalesce (a b : Value) : Value := if nullish a then b else a

/-- The key of `{ key: a, ...b }`, where the value of `b` is read from JSON. -/
def spread (a b : Value) : Value := if b = .undefined then a else b

/-! ## What the code is given -/

structure Domain where
  name : Value
  version : Value
  chainId : Value
  verifyingContract : Value

/-- The `types` map: the fields under `SessionAct`. -/
structure Types where
  sessionAct : Option (List (String × String))

structure Message where
  delegationHash : Value
  nonce : Value
  action : Value
  resource : Value
  deadline : Value
  targetAgent : Value
  payloadHash : Value

structure TypedData where
  domain : Option Domain
  types : Option Types
  message : Option Message

structure Proof where
  signature : Value
  sig : Value
  typed_data : Option TypedData
  typedData : Option TypedData
  message : Option Message
  domain : Option Domain
  types : Option Types
  nonce : Value
  deadline : Value
  action : Value
  resource : Value
  delegation_hash : Value
  delegationHash : Value
  target_agent : Value
  targetAgent : Value
  payload_hash : Value
  payloadHash : Value

structure Session where
  agent_pubkey : Value
  delegation_hash : Value
  valid_after : Value
  valid_until : Value
  session_expiry : Value

/-- 32 random bytes in hex. -/
structure Drawn where
  digits : Text
  length : digits.length = 64
  lower : digits.all JsText.isLowerHexDigit = true

def Drawn.text (d : Drawn) : Text := '0' :: 'x' :: d.digits

def isHexText (s : Text) : Bool := s.all fun c => JsText.isHexDigit c || c = 'x'

/-- The language and the signature library. -/
structure Js where
  toLowerCase : Text → Text
  lower_hex : ∀ s, isHexText s = true → toLowerCase s = s.map Char.toLower
  /-- `Number(text)`, when that is finite. -/
  numberOf : Text → Option ℚ
  /-- `BigInt(value)`, when that does not throw. -/
  bigInt : Value → Option ℤ
  isAddress : Value → Bool
  /-- `getAddress` of an address. -/
  getAddress : Value → Text
  /-- `getAddress(verifyTypedData(domain, types, message, signature))`, or what it throws. -/
  recover : Domain → Types → Message → Value → Except String Text

/-- `Number(value)`, when that is finite. -/
def Js.number (js : Js) : Value → Option ℚ
  | .undefined => none
  | .null => some 0
  | .string s => js.numberOf s
  | .other _ _ n => n

/-! ## Nonces -/

def strip0x : Text → Text
  | '0' :: 'x' :: rest => rest
  | s => s

def normalizeText (nonce : Text) : Option Text :=
  let hex := strip0x nonce
  if hex = [] ∨ hex.all JsText.isHexDigit = false ∨ 64 < hex.length then none
  else some ('0' :: 'x' :: JsText.padStart 64 '0' hex)

/-- A value that is no text gets 32 random bytes. -/
def normalizeSessionNonce (drawn : Drawn) : Value → Except String Text
  | .string nonce =>
    if nonce = [] then .ok drawn.text
    else match normalizeText nonce with
      | none => .error "session nonce must be a bytes32 hex string"
      | some text => .ok text
  | _ => .ok drawn.text

section Checks

variable (js : Js) (draw : ℕ → Drawn)

def hashesEqual (d d' : Drawn) (a b : Value) : Bool :=
  truthy a && truthy b && match normalizeSessionNonce d a, normalizeSessionNonce d' b with
    | .ok x, .ok y => js.toLowerCase x = js.toLowerCase y
    | _, _ => js.toLowerCase (shown a) = js.toLowerCase (shown b)

/-! ## The session -/

inductive Refusal where
  | rejected (reason : String)
  | thrown (message : String)
  deriving DecidableEq

structure Bound where
  agent_pubkey : Text
  delegation_hash : Text

def sessionBindsAgent (session : Option Session) (expectedDelegationHash : Value) : Except Refusal (Session × Bound) :=
  match session with
  | none => .error (.rejected "session_not_bound")
  | some session => do
    revertIf (truthy session.agent_pubkey = false ∨ js.isAddress session.agent_pubkey = false)
      (.rejected "session_not_bound")
    revertIf (truthy session.delegation_hash = false) (.rejected "session_not_bound")
    revertIf (truthy expectedDelegationHash ∧
      hashesEqual js (draw 0) (draw 1) session.delegation_hash expectedDelegationHash = false)
        (.rejected "delegation_hash_mismatch")
    let hash ← (normalizeSessionNonce (draw 2) session.delegation_hash).mapError .thrown
    .ok (session, ⟨js.getAddress session.agent_pubkey, hash⟩)

/-- `sessionIsActive`, for a session that binds its agent. -/
def sessionIsActive (session : Session) (now : ℤ) (revoked : Bool) : Except Refusal Unit := do
  revertIf (revoked = true) (.rejected "session_revoked")
  let validAfter := if nullish session.valid_after then some 0 else js.number session.valid_after
  revertIf (∃ after ∈ validAfter, (now : ℚ) < after) (.rejected "session_not_yet_valid")
  match js.number (coalesce session.valid_until session.session_expiry) with
  | none => .error (.rejected "session_expired")
  | some validUntil => revertIf (validUntil < now) (.rejected "session_expired")

/-! ## The signature -/

def ZERO_ADDRESS : Text := "0x0000000000000000000000000000000000000000".toList

def ZERO_BYTES32 : Text := '0' :: 'x' :: List.replicate 64 '0'

def SESSION_CHAIN_ID : ℤ := 8453

def VERIFYING_CONTRACT_DEFAULT : Value := .string "0x0000000000000000000000000000000000000402".toList

def SESSION_ACT_TYPES : Types := ⟨some [("delegationHash", "bytes32"), ("nonce", "bytes32"), ("action", "string"),
  ("resource", "string"), ("deadline", "uint256"), ("targetAgent", "address"), ("payloadHash", "bytes32")]⟩

def checksumOrDefault (value fallback : Value) : Text :=
  if truthy value ∧ js.isAddress value then js.getAddress value else js.getAddress fallback

def sessionEip712Domain (verifyingContract chainId : Value) : Domain where
  name := .string "Chit402".toList
  version := .string "1".toList
  chainId := .other (shown chainId) (truthy chainId) (js.number (coalesce chainId (numberValue SESSION_CHAIN_ID)))
  verifyingContract := .string (checksumOrDefault js verifyingContract VERIFYING_CONTRACT_DEFAULT)

/-- The domain with its own fields, once those it came with are found equal. -/
def canonicalizeSessionDomain (domain : Option Domain) (verifyingContract : Value) : Except String Domain := do
  let expected := sessionEip712Domain js verifyingContract .undefined
  let incoming := domain.getD ⟨.undefined, .undefined, .undefined, .undefined⟩
  revertIf (nullish incoming.chainId = false ∧ js.number incoming.chainId
    ≠ some (SESSION_CHAIN_ID : ℚ)) "chain_id_not_base"
  revertIf (nullish incoming.name = false ∧ shown incoming.name ≠ shown expected.name) "domain_name_mismatch"
  revertIf (nullish incoming.version = false ∧ shown incoming.version ≠ shown expected.version)
    "domain_version_mismatch"
  revertIf (nullish incoming.verifyingContract = false ∧ (js.isAddress incoming.verifyingContract = false
    ∨ js.getAddress incoming.verifyingContract ≠ shown expected.verifyingContract)) "verifying_contract_mismatch"
  .ok { expected with chainId := numberValue SESSION_CHAIN_ID }

def normalizeSessionActAction (action : Value) : Text :=
  js.toLowerCase (JsText.trim (if truthy action then shown action else []))

/-- `resolveSessionActTarget` -/
def resolveTarget (value fallback : Value) : Text :=
  let isTarget := fun v => truthy v && js.isAddress v && js.getAddress v ≠ ZERO_ADDRESS
  if isTarget value then js.getAddress value else if isTarget fallback then js.getAddress fallback else ZERO_ADDRESS

def normalizePayloadHash (d : Drawn) (value : Value) : Except String Text :=
  if truthy value then normalizeSessionNonce d value else .ok ZERO_BYTES32

def trimmed (value : Value) : Text := JsText.trim (if nullish value then [] else shown value)

structure Verified where
  agent_pubkey : Text
  nonce : Text
  action : Text
  resource : Text
  deadline : ℚ
  target_agent : Text
  payload_hash : Text
  domain : Domain
  types : Types

structure Expected where
  agent : Text
  delegationHash : Text
  nonce : Text
  action : Text
  resource : Text

/-- `value ? normalizeSessionNonce(value) : null` -/
def normalizeIfAny (d : Drawn) (value : Value) : Except String (Option Text) :=
  if truthy value then (normalizeSessionNonce d value).map some else .ok none

def checkSessionAct (types : Types) (msg : Message) (recovered : Text) (domain : Domain)
    (expected : Expected) (now : ℤ) :
    Except String Verified := do
  revertIf (js.isAddress (.string expected.agent) = false ∨ js.getAddress (.string expected.agent)
    ≠ recovered) "signer_mismatch"
  let actFields := (types.sessionAct.getD []).map Prod.fst
  revertIf ("targetAgent" ∉ actFields ∨ "payloadHash" ∉ actFields) "missing_session_act_types"
  let thrown := fun message => "verification_error: " ++ message
  let delegationHash ← (normalizeIfAny (draw 3) msg.delegationHash).mapError thrown
  let nonce ← (normalizeIfAny (draw 4) msg.nonce).mapError thrown
  let payloadHash ← (normalizePayloadHash (draw 5) msg.payloadHash).mapError thrown
  let action := normalizeSessionActAction js msg.action
  let resource := trimmed msg.resource
  let same := fun (found : Option Text) expected => found.any fun hash =>
    hashesEqual js (draw 6) (draw 7) (.string hash) (.string expected)
  revertIf (same delegationHash expected.delegationHash = false) "delegation_hash_mismatch"
  revertIf (same nonce expected.nonce = false) "nonce_mismatch"
  revertIf (action ≠ normalizeSessionActAction js (.string expected.action)) "action_mismatch"
  revertIf (resource ≠ JsText.trim expected.resource) "resource_mismatch"
  match js.number msg.deadline with
  | none => .error "missing_deadline"
  | some deadline => do
    revertIf (deadline < now) "deadline_expired"
    .ok ⟨recovered, nonce.getD [], action, resource, deadline,
      resolveTarget js msg.targetAgent .null, payloadHash, domain, types⟩

def verifySessionAct (typedData : TypedData) (signature : Value) (expected : Expected)
    (verifyingContract : Value) (now : ℤ) :
    Except String Verified := do
  revertIf (truthy signature = false) "missing_typed_data_or_signature"
  let domain ← canonicalizeSessionDomain js typedData.domain verifyingContract
  let none' := Value.undefined
  let msg := typedData.message.getD ⟨none', none', none', none', none', none', none'⟩
  let types := typedData.types.getD SESSION_ACT_TYPES
  revertIf (types.sessionAct = none) "missing_session_act_types"
  let recovered ← (js.recover domain types msg signature).mapError fun message => "verification_error: " ++ message
  checkSessionAct js draw types msg recovered domain expected now

/-! ## The challenges -/

structure Row where
  challenge_id : Text
  nonce : Text
  delegation_hash : Text
  expires_at : ℤ
  resource : Value
  deriving DecidableEq

structure Store where
  ttlSec : ℤ
  challenges : OrderedMap Text Row
  spent : Finset Text

/-- Between two and five minutes, three when nothing is asked for. -/
def clampChallengeTtlSec (value : Value) : ℤ :=
  if nullish value ∨ value = .string [] then 180
  else match js.number value with
    | none => 180
    | some n => if n ≤ 0 then 180 else min 300 (max 120 ⌊n⌋)

def gc (s : Store) (now : ℤ) : Store := { s with challenges := keep (fun row => now ≤ row.expires_at) s.challenges }

/-- The challenge that is issued under two draws. -/
def issued (s : Store) (delegationHash ttlSec resource : Value) (now : ℤ) (hash nonce id : Drawn) : Except String Row :=
  (normalizeSessionNonce hash delegationHash).map fun delegation_hash => {
    challenge_id := id.text
    nonce := nonce.text
    delegation_hash := delegation_hash
    expires_at := now + if nullish ttlSec then s.ttlSec else clampChallengeTtlSec js ttlSec
    resource := either resource .null }

def insertRow (s : Store) (row : Row) : Store :=
  { s with challenges := set s.challenges (js.toLowerCase row.challenge_id) row }

def peek (s : Store) (challengeId : Value) : Option Row :=
  if truthy challengeId then s.challenges.lookup (js.toLowerCase (shown challengeId)) else none

def isSpent (s : Store) (d : Drawn) (challengeId nonce : Value) : Bool :=
  (truthy challengeId && js.toLowerCase (shown challengeId) ∈ s.spent)
    || (truthy nonce && match normalizeSessionNonce d nonce with
      | .ok text => js.toLowerCase text ∈ s.spent
      | .error _ => false)

/-- An expired challenge is dropped. -/
def getLive (s : Store) (challengeId : Value) (now : ℤ) (expectedDelegationHash : Value) : Store × Except String Row :=
  if isSpent js s (draw 0) challengeId .null then (s, .error "nonce_reused")
  else match peek js s challengeId with
    | none => (s, .error "challenge_not_found")
    | some row =>
      if isSpent js s (draw 0) (.string row.challenge_id) (.string row.nonce) then (s, .error "nonce_reused")
      else if row.expires_at < now then
        ({ s with challenges := s.challenges.erase (js.toLowerCase row.challenge_id) }, .error "challenge_expired")
      else if truthy expectedDelegationHash ∧
          hashesEqual js (draw 1) (draw 2) (.string row.delegation_hash) expectedDelegationHash = false then
        (s, .error "delegation_hash_mismatch")
      else (s, .ok row)

def spendRow (s : Store) (row : Row) : Store := { s with
  challenges := s.challenges.erase (js.toLowerCase row.challenge_id)
  spent := insert (js.toLowerCase row.nonce) (insert (js.toLowerCase row.challenge_id) s.spent) }

def consume (s : Store) (challengeId : Value) (now : ℤ) : Store × Except String Row :=
  match getLive js draw s challengeId now .null with
  | (s, .error reason) => (s, .error reason)
  | (s, .ok row) => (spendRow js s row, .ok row)

def consumeNonce (s : Store) (nonce : Value) : Store × Except String Text :=
  if truthy nonce = false then (s, .error "invalid_nonce")
  else match normalizeSessionNonce (draw 0) nonce with
    | .error _ => (s, .error "invalid_nonce")
    | .ok text =>
      let key := js.toLowerCase text
      if key ∈ s.spent then (s, .error "nonce_reused") else ({ s with spent := insert key s.spent }, .ok key)

/-! ## The act -/

def toUint (value : Value) : Except String Text :=
  if nullish value ∨ value = .string [] then .error "deadline is required"
  else match js.bigInt value with
    | none => .error "deadline must be a non-negative integer"
    | some n => if n < 0 then .error "deadline must be a non-negative integer" else .ok (toString n).toList

structure ActParams where
  delegationHash : Value
  nonce : Value
  action : Value
  resource : Value
  deadline : Value
  targetAgent : Value
  payloadHash : Value
  verifyingContract : Value
  chainId : Value

def buildSessionActTypedData (params : ActParams) : Except String TypedData := do
  let delegationHash ← normalizeSessionNonce (draw 8) params.delegationHash
  let nonce ← normalizeSessionNonce (draw 9) params.nonce
  let action := normalizeSessionActAction js params.action
  revertIf (action = []) "action is required"
  let resource := trimmed params.resource
  revertIf (resource = []) "resource is required"
  let deadline ← toUint js params.deadline
  let payloadHash ← normalizePayloadHash (draw 10) params.payloadHash
  .ok {
    domain := some (sessionEip712Domain js params.verifyingContract params.chainId)
    types := some SESSION_ACT_TYPES
    message := some ⟨.string delegationHash, .string nonce, .string action, .string resource, .string deadline,
      .string (resolveTarget js params.targetAgent .null), .string payloadHash⟩ }

def typedDataFromActRequest (proof : Proof) (challenge : Option Row) (verifyingContract : Value) :
    Except String TypedData :=
  let ofChallenge := fun field : Row → Value => challenge.elim .undefined field
  let oneshotReady := challenge.isNone && truthy proof.nonce && !nullish proof.deadline && truthy proof.action
    && trimmed proof.resource ≠ []
  match (proof.typed_data.or proof.typedData).or (proof.message.map fun message =>
      ⟨some (proof.domain.getD (sessionEip712Domain js verifyingContract .undefined)),
        some (proof.types.getD SESSION_ACT_TYPES),
        some message⟩) with
  | some typedData => .ok typedData
  | none =>
    if challenge.isSome || oneshotReady then buildSessionActTypedData js draw {
      delegationHash := either (either proof.delegation_hash proof.delegationHash)
        (ofChallenge fun row => .string row.delegation_hash)
      nonce := either proof.nonce (ofChallenge fun row => .string row.nonce)
      action := proof.action
      resource := either proof.resource (ofChallenge Row.resource)
      deadline := coalesce proof.deadline (ofChallenge fun row => numberValue row.expires_at)
      targetAgent := either proof.target_agent proof.targetAgent
      payloadHash := either proof.payload_hash proof.payloadHash
      verifyingContract := proof.domain.elim verifyingContract fun domain =>
        spread verifyingContract domain.verifyingContract
      chainId := proof.domain.elim .undefined Domain.chainId }
    else .error "missing_typed_data_or_signature"

structure Request where
  session : Option Session
  revoked : Bool
  challenge : Option Row
  proof : Proof
  delegationHash : Value
  verifyingContract : Value
  now : ℤ

structure Accepted where
  agent_pubkey : Text
  delegation_hash : Text
  action : Text
  resource : Text
  nonce : Text
  challenge_id : Option Text
  typed_data : TypedData
  target_agent : Text
  payload_hash : Text

def checkChallenge (s : Store) (row : Row) (now : ℤ) (delegation_hash : Text) : Except Refusal Unit := do
  revertIf (isSpent js s (draw 0) (.string row.challenge_id) (.string row.nonce) = true) (.rejected "nonce_reused")
  revertIf (row.expires_at < now) (.rejected "challenge_expired")
  revertIf (hashesEqual js (draw 0) (draw 0) (.string row.delegation_hash) (.string delegation_hash) = false)
    (.rejected "delegation_hash_mismatch")

def clientNonce (s : Store) (nonce : Value) : Except Refusal Text :=
  match normalizeSessionNonce (draw 11) nonce with
  | .error _ => .error (.rejected "invalid_nonce")
  | .ok text => do
    revertIf (isSpent js s (draw 0) .null (.string text) = true) (.rejected "nonce_reused")
    .ok text

def checkOneshotDeadlineWindow (deadline : ℚ) (now : ℤ) : Except Refusal Unit := do
  revertIf (deadline < now) (.rejected "deadline_expired")
  revertIf ((now : ℚ) + 300 < deadline) (.rejected "deadline_too_far")

/-- The checks of `acceptSessionAct`, and the nonce it goes by. -/
def checkAct (s : Store) (r : Request) : Except Refusal (Text × Accepted) := do
  let (session, bound) ← sessionBindsAgent js draw r.session r.delegationHash
  sessionIsActive js session r.now r.revoked
  let oneshot := r.challenge.isNone && !nullish r.proof.nonce && !nullish r.proof.deadline
  revertIf (r.challenge = none ∧ oneshot = false) (.rejected "challenge_or_nonce_required")
  r.challenge.elim (.ok ()) fun row => checkChallenge js draw s row r.now bound.delegation_hash
  let action := normalizeSessionActAction js r.proof.action
  let resource := trimmed (coalesce r.proof.resource (r.challenge.elim .undefined Row.resource))
  revertIf (action = []) (.rejected "action_required")
  revertIf (resource = []) (.rejected "resource_required")
  let nonce ← r.challenge.elim (clientNonce js draw s r.proof.nonce) fun row => .ok row.nonce
  let typedData ← (typedDataFromActRequest js draw { r.proof with
    action := .string action
    resource := .string resource
    nonce := r.challenge.elim (.string nonce) fun row => either r.proof.nonce (.string row.nonce)
    deadline := r.challenge.elim r.proof.deadline fun row => coalesce r.proof.deadline (numberValue row.expires_at)
    delegation_hash := either (either r.proof.delegation_hash r.proof.delegationHash) (.string bound.delegation_hash)
    target_agent := either (either r.proof.target_agent r.proof.targetAgent)
      (.string (r.challenge.elim ZERO_ADDRESS fun _ => bound.agent_pubkey)) } r.challenge
        r.verifyingContract).mapError .rejected
  let verified ← (verifySessionAct js draw typedData (either r.proof.signature r.proof.sig)
    ⟨bound.agent_pubkey, bound.delegation_hash, nonce, action, resource⟩ r.verifyingContract r.now).mapError .rejected
  r.challenge.elim (checkOneshotDeadlineWindow verified.deadline r.now) fun row =>
    revertIf ((row.expires_at : ℚ) < verified.deadline) (.rejected "deadline_after_challenge")
  .ok (nonce, {
    agent_pubkey := bound.agent_pubkey
    delegation_hash := bound.delegation_hash
    action := verified.action
    resource := verified.resource
    nonce := verified.nonce
    challenge_id := r.challenge.map Row.challenge_id
    typed_data := { typedData with domain := some verified.domain, types := some verified.types }
    target_agent := resolveTarget js (.string verified.target_agent) (.string bound.agent_pubkey)
    payload_hash := verified.payload_hash })

/-- The act is checked first; then its challenge or its nonce is spent. -/
def acceptSessionAct (s : Store) (r : Request) : Store × Except Refusal Accepted :=
  match checkAct js draw s r with
  | .error refusal => (s, .error refusal)
  | .ok (nonce, accepted) =>
    let (s, consumed) := r.challenge.elim ((consumeNonce js draw s (.string nonce)).map id fun x => x.map fun _ => ())
      fun row => (consume js draw s (.string row.challenge_id) r.now).map id fun x => x.map fun _ => ()
    (s, match consumed with
      | .error reason => .error (.rejected reason)
      | .ok _ => .ok accepted)

end Checks

/-! ## Runs -/

/-- The store, with the challenges it issued and the acts that were accepted. -/
structure World where
  store : Store
  issued : List Row
  accepted : List (Request × Accepted)

inductive Op where
  | issue (delegationHash ttlSec resource : Value) (now : ℤ)
  | getLive (challengeId : Value) (now : ℤ) (expectedDelegationHash : Value)
  | consume (challengeId : Value) (now : ℤ)
  | consumeNonce (nonce : Value)
  | gc (now : ℤ)
  | accept (request : Request)

/-- A call, with what it draws at random. -/
structure Call where
  op : Op
  draw : ℕ → Drawn

def start (js : Js) (ttlSec : Value) : World := ⟨⟨clampChallengeTtlSec js ttlSec, ∅, ∅⟩, [], []⟩

def step (js : Js) (w : World) (call : Call) : World :=
  match call.op with
  | .issue delegationHash ttlSec resource now =>
    let store := gc w.store now
    match issued js store delegationHash ttlSec resource now (call.draw 0) (call.draw 1) (call.draw 2) with
    | .error _ => { w with store := store }
    | .ok row => { w with store := insertRow js store row, issued := w.issued ++ [row] }
  | .getLive challengeId now expected => { w with store := (getLive js call.draw w.store challengeId now expected).1 }
  | .consume challengeId now => { w with store := (consume js call.draw w.store challengeId now).1 }
  | .consumeNonce nonce => { w with store := (consumeNonce js call.draw w.store nonce).1 }
  | .gc now => { w with store := gc w.store now }
  | .accept request =>
    let (store, result) := acceptSessionAct js call.draw w.store request
    { w with store := store, accepted := w.accepted ++ (result.toOption.map (request, ·)).toList }

/-- An act comes with a challenge that the store issued, and no challenge id is drawn twice. -/
def Proper (w : World) (call : Call) : Prop :=
  match call.op with
  | .issue .. => ∀ row ∈ w.issued, row.challenge_id ≠ (call.draw 2).text
  | .accept request => ∀ row, request.challenge = some row → row ∈ w.issued
  | _ => True

/-- The 32 bytes a nonce spells. -/
def bytes32 (nonce : Text) : ℕ := Nat.ofDigits 16 ((strip0x nonce).reverse.map fun c => HexDigest.hexVal c.toLower)

def signedDeadline (js : Js) (a : Accepted) : Option ℚ := a.typed_data.message.bind fun msg => js.number msg.deadline

/-- **An act in time**: within its session, not revoked, before its deadline and its challenge's
    end, and a client's deadline at most 300 s ahead. -/
structure InTime (js : Js) (r : Request) (a : Accepted) : Prop where
  session : ∃ session validUntil, r.session = some session
    ∧ js.number (coalesce session.valid_until session.session_expiry) = some validUntil ∧ (r.now : ℚ) ≤ validUntil
  unrevoked : r.revoked = false
  deadline : ∃ deadline, signedDeadline js a = some deadline ∧ (r.now : ℚ) ≤ deadline
    ∧ (r.challenge = none → deadline ≤ r.now + 300)
  challenge : ∀ row, r.challenge = some row → r.now ≤ row.expires_at

/-- **One shot**: a nonce, however spelled, and a challenge carry one act each. -/
structure OneShot (js : Js) (w : World) : Prop where
  nonces : (w.accepted.map fun p => bytes32 p.2.nonce).Nodup
  signed : ∀ p ∈ w.accepted, ∀ msg s, p.2.typed_data.message = some msg → msg.nonce = .string s →
    bytes32 p.2.nonce = bytes32 s
  challenges : (w.accepted.filterMap fun p => p.1.challenge.map Row.challenge_id).Nodup
  inTime : ∀ p ∈ w.accepted, InTime js p.1 p.2

/-! ## Spellings of a nonce -/

/-- The one spelling of 32 bytes, up to letter case. -/
def Canonical (text : Text) : Prop :=
  ∃ digits, text = '0' :: 'x' :: digits ∧ digits.length = 64 ∧ digits.all JsText.isHexDigit = true

theorem Drawn.canonical (d : Drawn) : Canonical d.text :=
  ⟨d.digits, rfl, d.length, List.all_eq_true.mpr fun c hc => by
    rw [JsText.isHexDigit, List.all_eq_true.mp d.lower c hc, Bool.true_or]⟩

variable {a : Accepted} {d : Drawn} {expected : Expected} {row : Row} {id nonce t text : Text} {value : Value}
  {v : Verified} {now : ℤ}

theorem Canonical.isHexText (h : Canonical text) : isHexText text = true := by
  obtain ⟨digits, rfl, -, hdigits⟩ := h
  refine List.all_eq_true.mpr fun c hc => ?_
  obtain rfl | rfl | hc := List.mem_cons.mp hc |>.imp_right List.mem_cons.mp
  · rfl
  · rfl
  · rw [List.all_eq_true.mp hdigits c hc, Bool.true_or]

theorem normalizeText_some {s : Text} (h : normalizeText s = some text) :
    text = '0' :: 'x' :: JsText.padStart 64 '0' (strip0x s) ∧ strip0x s ≠ []
      ∧ (strip0x s).all JsText.isHexDigit = true ∧ (strip0x s).length ≤ 64 := by
  unfold normalizeText at h
  dsimp only at h
  split_ifs at h with hbad
  obtain ⟨hne, hhex, hlen⟩ := not_or.mp hbad |>.imp_right not_or.mp
  exact ⟨(Option.some.inj h).symm, hne, Bool.eq_true_of_not_eq_false hhex, Nat.le_of_not_lt hlen⟩

theorem canonical_of_normalizeText {s : Text} (h : normalizeText s = some text) : Canonical text := by
  obtain ⟨rfl, -, hhex, hlen⟩ := normalizeText_some h
  refine ⟨_, rfl, ?_, ?_⟩
  · rw [JsText.padStart, List.length_append, List.length_replicate]
    omega
  · rw [JsText.padStart, List.all_append, hhex, Bool.and_true, List.all_replicate]
    split_ifs <;> rfl

theorem Canonical.normalizeText (h : Canonical text) : normalizeText text = some text := by
  obtain ⟨digits, rfl, hlen, hhex⟩ := h
  have hgood : ¬ (digits = [] ∨ digits.all JsText.isHexDigit = false ∨ 64 < digits.length) := by
    rintro (rfl | hbad | hlong)
    · cases hlen
    · rw [hhex] at hbad
      cases hbad
    · omega
  show (if digits = [] ∨ digits.all JsText.isHexDigit = false ∨ 64 < digits.length then none
    else some ('0' :: 'x' :: JsText.padStart 64 '0' digits)) = _
  rw [if_neg hgood, JsText.padStart, hlen]
  rfl

theorem canonical_of_normalize (h : normalizeSessionNonce d value = .ok text) : Canonical text := by
  unfold normalizeSessionNonce at h
  split at h
  · split_ifs at h with hempty
    · rw [← Except.ok.inj h]
      exact d.canonical
    · split at h
      · cases h
      · rename_i s _ t ht
        rw [← Except.ok.inj h]
        exact canonical_of_normalizeText ht
  · rw [← Except.ok.inj h]
    exact d.canonical

@[simp] theorem Canonical.normalize (h : Canonical text) (d : Drawn) :
    normalizeSessionNonce d (.string text) = .ok text := by
  have hne : text ≠ [] := by
    obtain ⟨_, rfl, -⟩ := h
    exact List.cons_ne_nil _ _
  rw [normalizeSessionNonce, if_neg hne, h.normalizeText]

theorem Canonical.truthy (h : Canonical text) : truthy (.string text) = true := by
  obtain ⟨_, rfl, -⟩ := h
  rfl

theorem bytes32_normalizeText {s : Text} (h : normalizeText s = some text) : bytes32 text = bytes32 s := by
  obtain ⟨rfl, -⟩ := normalizeText_some h
  show Nat.ofDigits 16 ((JsText.padStart 64 '0' (strip0x s)).reverse.map _) = _
  rw [JsText.padStart, List.reverse_append, List.map_append, List.reverse_replicate,
    List.map_replicate, Nat.ofDigits_append,
    show HexDigest.hexVal (Char.toLower '0') = 0 from rfl]
  have hzero : ∀ n, Nat.ofDigits 16 (List.replicate n 0) = 0 := by
    intro n
    induction n with
    | zero => rfl
    | succ n ih => rw [List.replicate_succ, Nat.ofDigits_cons, ih]
  rw [hzero, Nat.mul_zero, Nat.add_zero]
  rfl

/-- Two canonical spellings of the same 32 bytes differ in letter case only. -/
theorem bytes32_inj {s : Text} (hs : Canonical s) (ht : Canonical t) (h : bytes32 s = bytes32 t) :
    s.map Char.toLower = t.map Char.toLower := by
  obtain ⟨ds, rfl, hlens, hhexs⟩ := hs
  obtain ⟨dt, rfl, hlent, hhext⟩ := ht
  have hlt : ∀ {digits : Text}, digits.all JsText.isHexDigit = true →
      ∀ n ∈ digits.reverse.map (fun c => HexDigest.hexVal c.toLower), n < 16 := by
    intro digits hhex n hn
    obtain ⟨c, hc, rfl⟩ := List.mem_map.mp hn
    exact HexDigest.hexVal_lt ((GatewayInclusion.isHexDigit_iff c).mp
      (List.all_eq_true.mp hhex c (List.mem_reverse.mp hc)))
  have hdigits := Nat.ofDigits_inj_of_len_eq (by decide : 1 < 16) (by simp [hlens, hlent]) (hlt hhexs) (hlt hhext) h
  rw [List.map_reverse, List.map_reverse, List.reverse_inj] at hdigits
  have hlower : ds.map Char.toLower = dt.map Char.toLower := by
    have hvals := congrArg (List.map HexDigest.hexDigit) hdigits
    rw [List.map_map, List.map_map] at hvals
    have hback : ∀ {digits : Text}, digits.all JsText.isHexDigit = true →
        digits.map (HexDigest.hexDigit ∘ fun c => HexDigest.hexVal c.toLower) = digits.map Char.toLower := fun hhex =>
      List.map_congr_left fun c hc => HexDigest.hexDigit_hexVal
        ((GatewayInclusion.isHexDigit_iff c).mp (List.all_eq_true.mp hhex c hc))
    rw [hback hhexs, hback hhext] at hvals
    exact hvals
  rw [List.map_cons, List.map_cons, List.map_cons, List.map_cons, hlower]

section Keeps

variable {js : Js} {draw : ℕ → Drawn} {s : Store} {r : Request} {w : World}

variable (js) in
theorem Canonical.lower (h : Canonical text) : js.toLowerCase text = text.map Char.toLower :=
  js.lower_hex text h.isHexText

theorem Drawn.lower_text (d : Drawn) : js.toLowerCase d.text = d.text := by
  have hhex : AnchorAnswer.isHex64 (String.ofList d.digits).toList = true := by
    rw [String.toList_ofList, AnchorAnswer.isHex64, d.lower, Bool.and_true]
    exact decide_eq_true d.length
  have hdigits := congrArg String.toList (AnchorAnswer.asciiText.lower_hex (String.ofList d.digits) hhex)
  rw [AnchorAnswer.asciiText, String.toList_ofList, String.toList_ofList] at hdigits
  rw [d.canonical.lower js]
  exact congrArg (fun digits => '0' :: 'x' :: digits) hdigits

theorem hashesEqual_canonical {d' : Drawn} {a b : Text} (ha : Canonical a) (hb : Canonical b) :
    hashesEqual js d d' (.string a) (.string b) = decide (js.toLowerCase a = js.toLowerCase b) := by
  simp [hashesEqual, ha.truthy, hb.truthy, ha, hb]

theorem truthy_string (h : text ≠ []) : truthy (.string text) = true := decide_eq_true h

theorem isSpent_id (h : id ≠ []) : isSpent js s d (.string id) .null = decide (js.toLowerCase id ∈ s.spent) := by
  simp only [isSpent, truthy_string h, shown_string, Bool.true_and, truthy_null, Bool.false_and, Bool.or_false]
  exact decide_eq_decide.mpr Iff.rfl

theorem isSpent_nonce (h : Canonical nonce) :
    isSpent js s d .null (.string nonce) = decide (js.toLowerCase nonce ∈ s.spent) := by
  simp only [isSpent, truthy_null, Bool.false_and, Bool.false_or, h.normalize, h.truthy, Bool.true_and]

theorem isSpent_pair (hid : id ≠ []) (h : Canonical nonce) :
    isSpent js s d (.string id) (.string nonce) = false ↔ js.toLowerCase id ∉ s.spent
      ∧ js.toLowerCase nonce ∉ s.spent := by
  simp only [isSpent, truthy_string hid, shown_string, Bool.true_and, h.normalize, h.truthy,
    Bool.or_eq_false_iff, decide_eq_false_iff_not]
  exact and_congr_left' decide_eq_false_iff_not

/-! ## What an accepted act says -/

/-- **What the checks leave**: the act is in time, and its nonce and its challenge are not spent. -/
structure Checked (js : Js) (s : Store) (r : Request) (nonce : Text) (a : Accepted) : Prop where
  inTime : InTime js r a
  canonical : Canonical nonce ∧ Canonical a.nonce
  same : js.toLowerCase a.nonce = js.toLowerCase nonce
  signed : ∀ msg text, a.typed_data.message = some msg → msg.nonce = .string text → bytes32 a.nonce = bytes32 text
  unspent : js.toLowerCase nonce ∉ s.spent
  challenge : ∀ row, r.challenge = some row → nonce = row.nonce ∧ js.toLowerCase row.challenge_id ∉ s.spent

theorem sessionIsActive_ok {session : Session} {revoked : Bool} {u : Unit}
    (h : sessionIsActive js session now revoked = .ok u) : revoked = false ∧ ∃ validUntil,
      js.number (coalesce session.valid_until session.session_expiry) = some validUntil ∧ (now : ℚ) ≤ validUntil := by
  obtain ⟨hrevoked, h⟩ := guarded_iff.mp h
  obtain ⟨-, h⟩ := guarded_iff.mp h
  refine ⟨Bool.eq_false_of_not_eq_true hrevoked, ?_⟩
  split at h
  · cases h
  · rename_i validUntil hnumber
    exact ⟨validUntil, hnumber, not_lt.mp (revertIf_ok_iff.mp h)⟩

theorem sessionBindsAgent_ok {session : Option Session} {expected : Value} {found : Session × Bound}
    (h : sessionBindsAgent js draw session expected = .ok found) : session = some found.1 := by
  unfold sessionBindsAgent at h
  split at h
  · cases h
  · obtain ⟨-, h⟩ := guarded_iff.mp h
    obtain ⟨-, h⟩ := guarded_iff.mp h
    obtain ⟨-, h⟩ := guarded_iff.mp h
    obtain ⟨hash, -, h⟩ := bind_iff.mp h
    rw [← Except.ok.inj h]

theorem normalizeIfAny_some (h : normalizeIfAny d value = .ok (some text)) :
    Canonical text ∧ ∀ s, value = .string s → bytes32 text = bytes32 s := by
  unfold normalizeIfAny at h
  split_ifs at h with htruthy
  · cases hn : normalizeSessionNonce d value with
    | error e =>
      rw [hn] at h
      cases h
    | ok found =>
      rw [hn] at h
      cases Except.ok.inj h
      refine ⟨canonical_of_normalize hn, fun s hs => ?_⟩
      rw [hs] at hn htruthy
      rw [normalizeSessionNonce, if_neg (by simpa [truthy] using htruthy)] at hn
      split at hn
      · cases hn
      · rename_i t ht
        rw [← Except.ok.inj hn]
        exact bytes32_normalizeText ht
  · cases Except.ok.inj h

/-- What a verified act signs: the nonce it is checked for, and a deadline that has not passed. -/
theorem checkSessionAct_ok {types : Types} {msg : Message} {recovered : Text} {domain : Domain}
    (h : checkSessionAct js draw types msg recovered domain expected now = .ok v)
    (hexpected : Canonical expected.nonce) : Canonical v.nonce ∧ js.toLowerCase v.nonce = js.toLowerCase expected.nonce
      ∧ (∀ s, msg.nonce = .string s → bytes32 v.nonce = bytes32 s)
      ∧ js.number msg.deadline = some v.deadline ∧ (now : ℚ) ≤ v.deadline := by
  obtain ⟨-, h⟩ := guarded_iff.mp h
  obtain ⟨-, h⟩ := guarded_iff.mp h
  obtain ⟨delegationHash, -, h⟩ := bind_iff.mp h
  obtain ⟨nonce, hnonce, h⟩ := bind_iff.mp h
  obtain ⟨payloadHash, -, h⟩ := bind_iff.mp h
  obtain ⟨-, h⟩ := guarded_iff.mp h
  obtain ⟨hsame, h⟩ := guarded_iff.mp h
  obtain ⟨-, h⟩ := guarded_iff.mp h
  obtain ⟨-, h⟩ := guarded_iff.mp h
  split at h
  · cases h
  · rename_i deadline hdeadline
    obtain ⟨hnow, h⟩ := guarded_iff.mp h
    cases h
    cases nonce with
    | none => exact absurd rfl hsame
    | some text =>
      obtain ⟨hcanonical, hbytes⟩ := normalizeIfAny_some (mapError_ok_iff.mp hnonce)
      have hhash : hashesEqual js (draw 6) (draw 7) (.string text) (.string expected.nonce) = true :=
        Bool.eq_true_of_not_eq_false hsame
      rw [hashesEqual_canonical hcanonical hexpected] at hhash
      exact ⟨hcanonical, of_decide_eq_true hhash, hbytes, hdeadline, not_lt.mp hnow⟩

theorem verifySessionAct_ok {typedData : TypedData} {signature : Value} {contract : Value}
    (h : verifySessionAct js draw typedData signature expected contract now = .ok v)
    (hexpected : Canonical expected.nonce) : Canonical v.nonce ∧ js.toLowerCase v.nonce = js.toLowerCase expected.nonce
      ∧ (∀ msg s, typedData.message = some msg → msg.nonce = .string s → bytes32 v.nonce = bytes32 s)
      ∧ (typedData.message.bind fun msg => js.number msg.deadline) = some v.deadline ∧ (now : ℚ) ≤ v.deadline := by
  obtain ⟨-, h⟩ := guarded_iff.mp h
  obtain ⟨domain, -, h⟩ := bind_iff.mp h
  obtain ⟨-, h⟩ := guarded_iff.mp h
  obtain ⟨recovered, -, h⟩ := bind_iff.mp h
  obtain ⟨hcanonical, hsame, hbytes, hdeadline, hnow⟩ := checkSessionAct_ok h hexpected
  cases hmsg : typedData.message with
  | none =>
    rw [hmsg] at hdeadline
    cases hdeadline
  | some msg =>
    rw [hmsg] at hbytes hdeadline
    refine ⟨hcanonical, hsame, fun msg' s hmsg' => ?_, hdeadline, hnow⟩
    rw [← Option.some.inj hmsg']
    exact hbytes s

theorem checkAct_ok (h : checkAct js draw s r = .ok (nonce, a))
    (hrow : ∀ row, r.challenge = some row → Canonical row.nonce ∧ row.challenge_id ≠ []) : Checked js s r nonce a := by
  obtain ⟨⟨session, bound⟩, hbound, h⟩ := bind_iff.mp h
  obtain ⟨u, hactive, h⟩ := bind_iff.mp h
  obtain ⟨-, h⟩ := guarded_iff.mp h
  obtain ⟨u, hchallenge, h⟩ := bind_iff.mp h
  obtain ⟨-, h⟩ := guarded_iff.mp h
  obtain ⟨-, h⟩ := guarded_iff.mp h
  obtain ⟨found, hfound, h⟩ := bind_iff.mp h
  obtain ⟨typedData, -, h⟩ := bind_iff.mp h
  obtain ⟨verified, hverified, h⟩ := bind_iff.mp h
  obtain ⟨u, hwindow, h⟩ := bind_iff.mp h
  obtain ⟨rfl, rfl⟩ := Prod.mk.inj (Except.ok.inj h)
  obtain ⟨hrevoked, validUntil, hnumber, huntil⟩ := sessionIsActive_ok hactive
  -- from a stored row, or as the client spelled it
  have hcanonical : Canonical found := by
    cases hc : r.challenge with
    | some row =>
      rw [hc] at hfound
      rw [← Except.ok.inj hfound]
      exact (hrow row hc).1
    | none =>
      rw [hc, Option.elim_none, clientNonce] at hfound
      split at hfound
      · cases hfound
      · rename_i text htext
        obtain ⟨-, hfound⟩ := guarded_iff.mp hfound
        rw [← Except.ok.inj hfound]
        exact canonical_of_normalize htext
  obtain ⟨hnonce, hsame, hsigned, hdeadline, hnow⟩ := verifySessionAct_ok (mapError_ok_iff.mp hverified) hcanonical
  refine {
    inTime := {
      session := ⟨session, validUntil, sessionBindsAgent_ok hbound, hnumber, huntil⟩
      unrevoked := hrevoked
      deadline := ⟨verified.deadline, hdeadline, hnow, fun hc => ?_⟩
      challenge := fun row hc => ?_ }
    canonical := ⟨hcanonical, hnonce⟩
    same := hsame
    signed := hsigned
    unspent := ?_
    challenge := fun row hc => ?_ }
  · rw [hc] at hwindow
    exact not_lt.mp (revertIf_ok_iff.mp (guarded_iff.mp hwindow).2)
  · rw [hc] at hchallenge
    exact not_lt.mp (guarded_iff.mp (guarded_iff.mp hchallenge).2).1
  · cases hc : r.challenge with
    | some row =>
      rw [hc] at hchallenge hfound
      rw [← Except.ok.inj hfound]
      have hspent := Bool.eq_false_of_not_eq_true (guarded_iff.mp hchallenge).1
      exact ((isSpent_pair (hrow row hc).2 (hrow row hc).1).mp hspent).2
    | none =>
      rw [hc, Option.elim_none, clientNonce] at hfound
      split at hfound
      · cases hfound
      · rename_i text htext
        obtain ⟨hspent, hfound⟩ := guarded_iff.mp hfound
        rw [← Except.ok.inj hfound]
        rw [isSpent_nonce (canonical_of_normalize htext), decide_eq_true_eq] at hspent
        exact hspent
  · rw [hc] at hchallenge hfound
    have hunspent := Bool.eq_false_of_not_eq_true (guarded_iff.mp hchallenge).1
    exact ⟨(Except.ok.inj hfound).symm, ((isSpent_pair (hrow row hc).2 (hrow row hc).1).mp hunspent).1⟩

/-! ## What a run keeps -/

/-- A store that lost challenges and spent more. -/
structure Shrinks (s s' : Store) : Prop where
  challenges : ∀ k row, s'.challenges.lookup k = some row → s.challenges.lookup k = some row
  spent : s.spent ⊆ s'.spent

theorem Shrinks.refl (s : Store) : Shrinks s s := ⟨fun _ _ h => h, Finset.Subset.refl _⟩

theorem lookup_of_erase {m : OrderedMap Text Row} {key k : Text} (h : (m.erase key).lookup k = some row) :
    m.lookup k = some row := by
  rw [lookup_erase_eq] at h
  split_ifs at h
  exact h

theorem gc_shrinks (s : Store) (now : ℤ) : Shrinks s (gc s now) := by
  refine ⟨fun k row h => ?_, Finset.Subset.refl _⟩
  rw [gc, lookup_keep] at h
  exact (Option.filter_eq_some_iff.mp h).1

variable (js) in
theorem spendRow_shrinks (s : Store) (row : Row) : Shrinks s (spendRow js s row) :=
  ⟨fun _ _ h => lookup_of_erase h, fun _ h => Finset.mem_insert_of_mem (Finset.mem_insert_of_mem h)⟩

variable (js draw) in
theorem getLive_shrinks (s : Store) (challengeId : Value) (now : ℤ) (expected : Value) :
    Shrinks s (getLive js draw s challengeId now expected).1 := by
  unfold getLive
  split
  · exact Shrinks.refl s
  · split
    · exact Shrinks.refl s
    · split
      · exact Shrinks.refl s
      · split
        · exact ⟨fun _ _ h => lookup_of_erase h, Finset.Subset.refl _⟩
        · split
          · exact Shrinks.refl s
          · exact Shrinks.refl s

theorem consume_shrinks (s : Store) (challengeId : Value) (now : ℤ) :
    Shrinks s (consume js draw s challengeId now).1 := by
  have hlive := getLive_shrinks js draw s challengeId now .null
  unfold consume
  split
  · rename_i s' reason hget
    rw [hget] at hlive
    exact hlive
  · rename_i s' row hget
    rw [hget] at hlive
    have hspend := spendRow_shrinks js s' row
    exact ⟨fun k row h => hlive.challenges k row (hspend.challenges k row h), hlive.spent.trans hspend.spent⟩

theorem consumeNonce_shrinks (s : Store) (nonce : Value) : Shrinks s (consumeNonce js draw s nonce).1 := by
  unfold consumeNonce
  split
  · exact Shrinks.refl s
  · split
    · exact Shrinks.refl s
    · dsimp only
      split
      · exact Shrinks.refl s
      · exact ⟨fun _ _ h => h, Finset.subset_insert ..⟩

/-- **What a run keeps**: the store holds challenges it issued under their ids, and every
    accepted act has its nonce and its challenge in the spent set. -/
structure Kept (js : Js) (w : World) : Prop where
  stored : ∀ k row, w.store.challenges.lookup k = some row → row ∈ w.issued ∧ k = row.challenge_id
  drawn : ∀ row ∈ w.issued, (∃ d : Drawn, row.challenge_id = d.text) ∧ Canonical row.nonce
  ids : ∀ row ∈ w.issued, ∀ row' ∈ w.issued, row.challenge_id = row'.challenge_id → row = row'
  spent : ∀ p ∈ w.accepted, Canonical p.2.nonce ∧ js.toLowerCase p.2.nonce ∈ w.store.spent
    ∧ ∀ row, p.1.challenge = some row → row.challenge_id ∈ w.store.spent
  oneShot : OneShot js w

theorem Kept.shrink (h : Kept js w) {store : Store} (hshrinks : Shrinks w.store store) :
    Kept js { w with store := store } :=
  { h with
    stored := fun k row hrow => h.stored k row (hshrinks.challenges k row hrow)
    spent := fun p hp => ⟨(h.spent p hp).1, hshrinks.spent (h.spent p hp).2.1, fun row hrow =>
      hshrinks.spent ((h.spent p hp).2.2 row hrow)⟩
    oneShot := { h.oneShot with } }

theorem Kept.lower_id (h : Kept js w) (hrow : row ∈ w.issued) :
    js.toLowerCase row.challenge_id = row.challenge_id ∧ row.challenge_id ≠ [] := by
  obtain ⟨d, hd⟩ := (h.drawn row hrow).1
  rw [hd]
  exact ⟨d.lower_text, List.cons_ne_nil _ _⟩

/-- A new challenge goes in under a new id. -/
theorem Kept.insert (h : Kept js w) (hid : ∃ d : Drawn, row.challenge_id = d.text) (hnonce : Canonical row.nonce)
    (hfresh : ∀ old ∈ w.issued, old.challenge_id ≠ row.challenge_id) :
    Kept js { w with store := insertRow js w.store row, issued := w.issued ++ [row] } := by
  obtain ⟨d, hd⟩ := hid
  have hlower : js.toLowerCase row.challenge_id = row.challenge_id := by rw [hd, d.lower_text]
  refine { h with
    stored := fun k found hfound => ?_
    drawn := fun found hfound => ?_
    ids := fun a ha b hb heq => ?_
    oneShot := { h.oneShot with } }
  · have hfound : (set w.store.challenges (js.toLowerCase row.challenge_id) row).lookup k = some found := hfound
    rw [lookup_set, hlower] at hfound
    split_ifs at hfound with hk
    · cases hfound
      exact ⟨List.mem_append_right _ List.mem_cons_self, hk⟩
    · obtain ⟨hin, hkey⟩ := h.stored k found hfound
      exact ⟨List.mem_append_left _ hin, hkey⟩
  · obtain hfound | hfound := List.mem_append.mp hfound
    · exact h.drawn found hfound
    · rw [List.mem_singleton.mp hfound]
      exact ⟨⟨d, hd⟩, hnonce⟩
  · obtain ha | ha := List.mem_append.mp ha
    · obtain hb | hb := List.mem_append.mp hb
      · exact h.ids a ha b hb heq
      · rw [List.mem_singleton.mp hb] at heq
        exact absurd heq (hfresh a ha)
    · rw [List.mem_singleton.mp ha] at heq ⊢
      obtain hb | hb := List.mem_append.mp hb
      · exact absurd heq.symm (hfresh b hb)
      · exact (List.mem_singleton.mp hb).symm

/-- The store after an accepted act. -/
def spend (js : Js) (s : Store) (r : Request) (nonce : Text) : Store :=
  r.challenge.elim { s with spent := Insert.insert (js.toLowerCase nonce) s.spent } (spendRow js s)

variable (draw) in
/-- An unspent challenge in time is spent, or it is gone. -/
theorem Kept.consume_cases (h : Kept js w) (hrow : row ∈ w.issued) (hnow : now ≤ row.expires_at)
    (hid : js.toLowerCase row.challenge_id ∉ w.store.spent) (hnonce : js.toLowerCase row.nonce ∉ w.store.spent) :
    consume js draw w.store (.string row.challenge_id) now = (w.store, .error "challenge_not_found")
      ∨ consume js draw w.store (.string row.challenge_id) now = (spendRow js w.store row, .ok row) := by
  obtain ⟨hlower, hne⟩ := h.lower_id hrow
  have hlive : isSpent js w.store (draw 0) (.string row.challenge_id) .null = false := by
    rw [isSpent_id hne]
    exact decide_eq_false hid
  have hspent := (isSpent_pair (d := draw 0) hne (h.drawn row hrow).2).mpr ⟨hid, hnonce⟩
  have hpeek : peek js w.store (.string row.challenge_id) = w.store.challenges.lookup row.challenge_id := by
    rw [peek, if_pos (truthy_string hne), shown_string, hlower]
  have hget : getLive js draw w.store (.string row.challenge_id) now .null
      = match w.store.challenges.lookup row.challenge_id with
        | none => (w.store, .error "challenge_not_found")
        | some _ => (w.store, .ok row) := by
    rw [getLive, if_neg (by rw [hlive]; exact Bool.false_ne_true), hpeek]
    cases hfound : w.store.challenges.lookup row.challenge_id with
    | none => rfl
    | some found =>
      obtain ⟨hin, hkey⟩ := h.stored _ found hfound
      obtain rfl := h.ids row hrow found hin hkey
      dsimp only
      rw [if_neg (by rw [hspent]; exact Bool.false_ne_true), if_neg (not_lt.mpr hnow), if_neg (fun h => nomatch h.1)]
  rw [consume, hget]
  cases w.store.challenges.lookup row.challenge_id with
  | none => exact .inl rfl
  | some _ => exact .inr rfl

variable (draw) in
/-- **An act**: it is refused and the store stays, or it is in time with its nonce and its
    challenge unspent, and spends them. -/
theorem Kept.accept_cases (h : Kept js w) (hissued : ∀ row, r.challenge = some row → row ∈ w.issued) :
    (∃ refusal, acceptSessionAct js draw w.store r = (w.store, .error refusal))
      ∨ ∃ nonce a, Checked js w.store r nonce a ∧ acceptSessionAct js draw w.store r
        = (spend js w.store r nonce, .ok a) := by
  unfold acceptSessionAct spend
  split
  · rename_i refusal _
    exact .inl ⟨refusal, rfl⟩
  · rename_i nonce a hchecked
    have hc := checkAct_ok hchecked fun row hrow =>
      ⟨(h.drawn row (hissued row hrow)).2, (h.lower_id (hissued row hrow)).2⟩
    cases hrow : r.challenge with
    | none =>
      have hnonce : consumeNonce js draw w.store (.string nonce)
          = ({ w.store with spent := Insert.insert (js.toLowerCase nonce) w.store.spent },
            .ok (js.toLowerCase nonce)) := by
        rw [consumeNonce, hc.canonical.1.truthy, if_neg (fun h => nomatch h), hc.canonical.1.normalize]
        dsimp only
        rw [if_neg hc.unspent]
      rw [Option.elim_none, hnonce]
      exact .inr ⟨nonce, a, hc, rfl⟩
    | some row =>
      obtain ⟨rfl, hid⟩ := hc.challenge row hrow
      rw [Option.elim_some]
      obtain hgone | hspent := h.consume_cases draw (hissued row hrow) (hc.inTime.challenge row hrow) hid hc.unspent
      · rw [hgone]
        exact .inl ⟨_, rfl⟩
      · rw [hspent]
        exact .inr ⟨row.nonce, a, hc, rfl⟩

variable (js) in
theorem spend_shrinks (s : Store) (nonce : Text) : Shrinks s (spend js s r nonce) := by
  unfold spend
  cases r.challenge with
  | none => exact ⟨fun _ _ h => h, Finset.subset_insert ..⟩
  | some row => exact spendRow_shrinks js s row

/-- A new act shares its nonce and its challenge with no earlier one. -/
theorem Kept.fresh (h : Kept js w) (hissued : ∀ row, r.challenge = some row → row ∈ w.issued)
    (hc : Checked js w.store r nonce a) {p : Request × Accepted} (hp : p ∈ w.accepted) :
    bytes32 p.2.nonce ≠ bytes32 a.nonce
      ∧ ∀ row row', p.1.challenge = some row → r.challenge = some row' → row.challenge_id ≠ row'.challenge_id := by
  obtain ⟨hcanonical, hspent, hids⟩ := h.spent p hp
  constructor
  · intro heq
    have hlower := bytes32_inj hcanonical hc.canonical.2 heq
    rw [← hcanonical.lower js, ← hc.canonical.2.lower js, hc.same] at hlower
    rw [hlower] at hspent
    exact hc.unspent hspent
  · intro row row' hrow hrow' heq
    refine (hc.challenge row' hrow').2 ?_
    rw [(h.lower_id (hissued row' hrow')).1, ← heq]
    exact hids row hrow

/-- **ACCEPTED**: the act is added, its nonce and its challenge are spent. -/
theorem Kept.accepted (h : Kept js w) (hissued : ∀ row, r.challenge = some row → row ∈ w.issued)
    (hc : Checked js w.store r nonce a) :
    Kept js { w with store := spend js w.store r nonce, accepted := w.accepted ++ [(r, a)] } := by
  have hspend := spend_shrinks js (r := r) w.store nonce
  refine {
    stored := fun k row hrow => h.stored k row (hspend.challenges k row hrow)
    drawn := h.drawn
    ids := h.ids
    spent := fun p hp => ?_
    oneShot := { nonces := ?_, signed := fun p hp => ?_, challenges := ?_, inTime := fun p hp => ?_ } }
  · obtain hp | hp := List.mem_append.mp hp
    · exact ⟨(h.spent p hp).1, hspend.spent (h.spent p hp).2.1,
        fun row hrow => hspend.spent ((h.spent p hp).2.2 row hrow)⟩
    · rw [List.mem_singleton.mp hp]
      refine ⟨hc.canonical.2, ?_, fun row hrow => ?_⟩
      · show js.toLowerCase a.nonce ∈ (spend js w.store r nonce).spent
        rw [hc.same, spend]
        cases hrow : r.challenge with
        | none => exact Finset.mem_insert_self ..
        | some row =>
          rw [(hc.challenge row hrow).1]
          exact Finset.mem_insert_self ..
      · show row.challenge_id ∈ (spend js w.store r nonce).spent
        have hrow : r.challenge = some row := hrow
        rw [spend, hrow, ← (h.lower_id (hissued row hrow)).1]
        exact Finset.mem_insert_of_mem (Finset.mem_insert_self ..)
  · rw [List.map_append, List.map_singleton, List.nodup_append]
    refine ⟨h.oneShot.nonces, List.nodup_singleton _, fun k hk k' hk' heq => ?_⟩
    obtain ⟨p, hp, rfl⟩ := List.mem_map.mp hk
    exact (h.fresh hissued hc hp).1 (heq.trans (List.mem_singleton.mp hk'))
  · obtain hp | hp := List.mem_append.mp hp
    · exact h.oneShot.signed p hp
    · rw [List.mem_singleton.mp hp]
      exact hc.signed
  · rw [List.filterMap_append, List.nodup_append]
    refine ⟨h.oneShot.challenges, ?_, fun k hk k' hk' heq => ?_⟩
    · cases hrow : r.challenge with
      | none => simp [hrow]
      | some row => simp [hrow]
    · obtain ⟨p, hp, hid⟩ := List.mem_filterMap.mp hk
      obtain ⟨q, hq, hid'⟩ := List.mem_filterMap.mp hk'
      rw [List.mem_singleton.mp hq] at hid'
      obtain ⟨row, hrow, rfl⟩ := Option.map_eq_some_iff.mp hid
      obtain ⟨row', hrow', rfl⟩ := Option.map_eq_some_iff.mp hid'
      exact (h.fresh hissued hc hp).2 row row' hrow hrow' heq
  · obtain hp | hp := List.mem_append.mp hp
    · exact h.oneShot.inTime p hp
    · rw [List.mem_singleton.mp hp]
      exact hc.inTime

/-- **STEP**: a proper call keeps what is kept. -/
theorem Kept.step (h : Kept js w) {call : Call} (hproper : Proper w call) : Kept js (step js w call) := by
  obtain ⟨op, draw⟩ := call
  cases op with
  | issue delegationHash ttlSec resource now =>
    have hgc := h.shrink (gc_shrinks w.store now)
    show Kept js (match issued js (gc w.store now) delegationHash ttlSec resource now (draw 0) (draw 1) (draw 2) with
      | .error _ => { w with store := gc w.store now }
      | .ok row => { w with store := insertRow js (gc w.store now) row, issued := w.issued ++ [row] })
    unfold issued
    cases normalizeSessionNonce (draw 0) delegationHash with
    | error _ => exact hgc
    | ok hash => exact hgc.insert ⟨draw 2, rfl⟩ (draw 1).canonical hproper
  | getLive challengeId now expected => exact h.shrink (getLive_shrinks ..)
  | consume challengeId now => exact h.shrink (consume_shrinks ..)
  | consumeNonce nonce => exact h.shrink (consumeNonce_shrinks ..)
  | gc now => exact h.shrink (gc_shrinks ..)
  | accept request =>
    show Kept js { w with
      store := (acceptSessionAct js draw w.store request).1
      accepted := w.accepted ++ ((acceptSessionAct js draw w.store request).2.toOption.map (request, ·)).toList }
    obtain ⟨refusal, hrefused⟩ | ⟨nonce, a, hc, haccepted⟩ := h.accept_cases draw hproper
    · rw [hrefused, show ((Except.error refusal : Except Refusal Accepted).toOption.map (request, ·)).toList
        = [] from rfl,
        List.append_nil]
      exact h
    · rw [haccepted]
      exact h.accepted hproper hc

theorem Kept.start (ttlSec : Value) : Kept js (start js ttlSec) where
  stored := fun _ _ h => nomatch h
  drawn := fun _ h => absurd h List.not_mem_nil
  ids := fun _ h => absurd h List.not_mem_nil
  spent := fun _ h => absurd h List.not_mem_nil
  oneShot := ⟨List.nodup_nil, fun _ h => absurd h List.not_mem_nil, List.nodup_nil,
    fun _ h => absurd h List.not_mem_nil⟩

end Keeps

/-! ## The result -/

/-- **ONE SHOT**: along a run a nonce and a challenge carry one act each, every act is in time,
    and an act that is refused leaves the store as it was. -/
theorem acts_one_shot (js : Js) (ttlSec : Value) (calls : List Call)
    (h : Trace.Along (step js) Proper (start js ttlSec) calls) :
    OneShot js (Trace.run (step js) (start js ttlSec) calls)
      ∧ ∀ draw request, Proper (Trace.run (step js) (start js ttlSec) calls) ⟨.accept request, draw⟩ →
        ∀ store refusal, acceptSessionAct js draw (Trace.run (step js) (start js ttlSec) calls).store request
            = (store, .error refusal) → store = (Trace.run (step js) (start js ttlSec) calls).store := by
  have hkept : Kept js (Trace.run (step js) (start js ttlSec) calls) :=
    h.keeps (Kept js) (Kept.start ttlSec) fun _ _ hproper hkept => hkept.step hproper
  refine ⟨hkept.oneShot, fun draw request hproper store refusal hrefused => ?_⟩
  obtain ⟨_, heq⟩ | ⟨_, _, _, heq⟩ := hkept.accept_cases draw hproper
  · rw [heq] at hrefused
    exact (Prod.mk.inj hrefused).1.symm
  · rw [heq] at hrefused
    exact nomatch (Prod.mk.inj hrefused).2

def sampleJs : Js where
  toLowerCase := List.map Char.toLower
  lower_hex _ _ := rfl
  numberOf text := (NumberText.integerOf text).map fun n => (n : ℚ)
  bigInt value := (NumberText.digitsOf 10 (shown value)).map Int.ofNat
  isAddress value := (strip0x (shown value)).length = 40
  getAddress value := shown value
  recover _ _ _ _ := .ok "0x1111111111111111111111111111111111111111".toList

def sampleDrawn : Drawn := ⟨List.replicate 64 'a', List.length_replicate, by decide⟩

def sampleRequest : Request where
  session := some ⟨.string "0x1111111111111111111111111111111111111111".toList,
    .string sampleDrawn.text, .undefined, numberValue 2000,
    .undefined⟩
  revoked := false
  challenge := none
  proof := ⟨.string ['s', 'i', 'g'], .undefined, none, none, none, none, none, .string ['B', '7'], numberValue 1100,
    .string "redeem".toList, .string "claim-1".toList, .undefined, .undefined, .undefined,
      .undefined, .undefined, .undefined⟩
  delegationHash := .undefined
  verifyingContract := .undefined
  now := 1000

def sampleNonce : Drawn := ⟨List.replicate 64 'b', List.length_replicate, by decide⟩

def sampleId : Drawn := ⟨List.replicate 64 'c', List.length_replicate, by decide⟩

def sampleDraw (n : ℕ) : Drawn := if n = 1 then sampleNonce else if n = 2 then sampleId else sampleDrawn

/-- The challenge that is issued at 1000. -/
def sampleChallenge : Row := ⟨sampleId.text, sampleNonce.text, sampleDrawn.text, 1180, .null⟩

/-- The same act with the nonce and the deadline of the challenge. -/
def challengeRequest : Request := { sampleRequest with
  challenge := some sampleChallenge
  proof := { sampleRequest.proof with nonce := .undefined, deadline := .undefined } }

/-- A challenge, an act with the nonce `B7`, an act for the challenge, and that act once more. -/
def sampleCalls : List Call :=
  [⟨.issue (.string sampleDrawn.text) .null .undefined 1000, sampleDraw⟩, ⟨.accept sampleRequest, sampleDraw⟩,
    ⟨.accept challengeRequest, sampleDraw⟩, ⟨.accept challengeRequest, sampleDraw⟩]

theorem sampleCalls_issued : ∀ n ∈ [2, 3, 4],
    sampleChallenge ∈ (Trace.run (step sampleJs) (start sampleJs .null) (sampleCalls.take n)).issued := by
  decide +kernel

/-- Of the three acts two are accepted, and the one that is refused leaves the store as it was. -/
theorem acts_one_shot_sample :
    let w := Trace.run (step sampleJs) (start sampleJs .null) sampleCalls
    w.accepted.length = 2 ∧ OneShot sampleJs w
      ∧ (acceptSessionAct sampleJs sampleDraw w.store challengeRequest).1 = w.store := by
  intro w
  have hchallenge : ∀ n ∈ [2, 3, 4], ∀ row, challengeRequest.challenge = some row →
      row ∈ (Trace.run (step sampleJs) (start sampleJs .null) (sampleCalls.take n)).issued := by
    intro n hn row hrow
    rw [← Option.some.inj hrow]
    exact sampleCalls_issued n hn
  obtain ⟨honce, hkept⟩ := acts_one_shot sampleJs .null sampleCalls
    ⟨fun _ h => absurd h List.not_mem_nil, fun _ h => (nomatch h), hchallenge 2 (by decide),
      hchallenge 3 (by decide), trivial⟩
  refine ⟨by decide +kernel, honce, ?_⟩
  have hrefused : (acceptSessionAct sampleJs sampleDraw w.store challengeRequest).2.toOption.isNone = true := by
    decide +kernel
  cases hanswer : acceptSessionAct sampleJs sampleDraw w.store challengeRequest with
  | mk store answer =>
    rw [hanswer] at hrefused
    cases answer with
    | ok a => cases hrefused
    | error refusal => exact hkept sampleDraw challengeRequest (hchallenge 4 (by decide)) store refusal hanswer

end SessionAct
