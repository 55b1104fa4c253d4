import Chit402.JsonValueProofs
import Chit402.JsTextProofs

/-! # What the signed claims say about the receipt around them

    The issuer signs a payload; the receipt is the document that carries it.
    The checks of this file compare the two, and read the signed claims alone:
    the claim id, the tree head a newer payload must name, the outer copies of
    signed fields, and the fields the signature has to cover. -/

namespace ReceiptClaim

open JsonValue JsText

/-! ## The signed claims alone -/

inductive ClaimIdVerdict where
  | not_present_legacy | ok | refused
deriving DecidableEq

/-- `claimIdVerdict`: a payment reference needs a claim id once the key exists. -/
def claimIdVerdict (claims : Option Obj) : ClaimIdVerdict :=
  match claims with
  | none => .not_present_legacy
  | some claims =>
    if hasOwn claims "claim_id" then
      let ref := (asRecord (get? claims "payment")).bind fun payment => get? payment "ref"
      let hasRef := !isNullish ref && (ref.map text).getD "" ≠ ""
      let id := get? claims "claim_id"
      let missing := isNullish id || asString id = some ""
      if hasRef && missing then .refused else .ok
    else .not_present_legacy

/-- `FEATURE_FIRST_VERSION.head_binding` -/
def HEAD_BINDING_PAYLOAD_VERSION : ℚ := 9

inductive HeadBindingVerdict where
  | not_present_legacy | missing | ok
deriving DecidableEq

/-- `Number(claims.payload_version)` when that is finite.  The version gate
    has refused every version that is not a JSON number. -/
def payloadVersion (claims : Obj) : Option ℚ :=
  match get? claims "payload_version" with
  | some (.num n) => if n.isFinite then some n.value else none
  | _ => none

/-- `headBindingVerdict` -/
def headBindingVerdict (claims : Option Obj) : HeadBindingVerdict :=
  match claims with
  | none => .not_present_legacy
  | some claims =>
    match payloadVersion claims with
    | none => .not_present_legacy
    | some version =>
      if version < HEAD_BINDING_PAYLOAD_VERSION then .not_present_legacy
      else if hasOwn claims "tree_head_hash" && hasOwn claims "tolerance" then .ok
      else .missing

/-! ## Outer copies -/

structure ClaimMismatch where
  field : String
  outer : Option String
  signed : Option String
deriving DecidableEq

/-- `formatClaim`; `none` is null. -/
def formatClaim : Option Json → Option String
  | none => none
  | some .null => none
  | some (.str s) => some s
  | some (.num n) => some n.text
  | some (.bool b) => some (if b then "true" else "false")
  | some value => some (stringify value)

/-- `/^0x[0-9a-fA-F]+$/` -/
def isHexText (s : String) : Bool :=
  match s.toList with
  | '0' :: 'x' :: digits => !digits.isEmpty && digits.all isHexDigit
  | _ => false

def isArray : Json → Bool
  | .arr _ => true
  | _ => false

/-- `sameLeaf`: 0x hex without case, everything else exactly. -/
def sameLeaf (signed outer : Json) : Bool :=
  if isArray signed || isArray outer then stringify signed = stringify outer
  else match signed, outer with
  | .str s, .str o => if isHexText s && isHexText o then lowered s = lowered o else s = o
  | .null, .null => true
  | .bool s, .bool o => s = o
  | .num s, .num o => s = o
  | _, _ => false

mutual

/-- One signed value against the outer value of the same path. -/
def compareSignedNode (signed outer : Json) (path : String) : List ClaimMismatch :=
  match signed, outer with
  | .obj fields, .obj copies => compareSignedFields fields copies path
  | signed, outer =>
    if sameLeaf signed outer then []
    else [⟨path, formatClaim (some outer), formatClaim (some signed)⟩]

/-- The loop over the signed keys.  The payload's own `schema` is not a copy
    of the document's, and a path the document leaves out is no copy. -/
def compareSignedFields (fields : List (String × Json)) (outer : Obj) (above : String) : List ClaimMismatch :=
  match fields with
  | [] => []
  | (key, value) :: rest =>
    let path := if above = "" then key else above ++ "." ++ key
    let here :=
      if path = "schema" then []
      else match get? outer key with
        | none => []
        | some copy => compareSignedNode value copy path
    here ++ compareSignedFields rest outer above

end

/-- `signedReceiptId`: the task id wins. -/
def signedReceiptId (claims : Obj) : Option String :=
  (asString (get? claims "task_id")).filter (· ≠ "") <|> (asString (get? claims "receipt_id")).filter (· ≠ "")

/-- `diffOuterClaims` -/
def diffOuterClaims (receipt : Obj) (claims : Option Obj) : List ClaimMismatch :=
  match claims with
  | none => []
  | some claims =>
    let outer := get? receipt "receipt_id"
    compareSignedFields claims receipt "" ++
      if hasOwn claims "receipt_id" || !hasOwn receipt "receipt_id" then []
      else match signedReceiptId claims with
        | none => []
        | some signed =>
          if asString outer = some signed then [] else [⟨"receipt_id", formatClaim outer, some signed⟩]

/-! ## What the signature has to cover -/

/-- `RECEIPT_SIGNED_SCHEMAS` -/
def RECEIPT_SIGNED_SCHEMAS : List String := ["chit402.foreign_payout.v1"]

/-- `/^chit402(?![a-z0-9])/` -/
def namesChit402 (s : List Char) : Bool :=
  let name := "chit402".toList
  s.take name.length = name &&
    match s.drop name.length with
    | [] => true
    | c :: _ => !(('a' ≤ c && c ≤ 'z') || c.isDigit)

/-- `nonReceiptSignedSchema`: an allowlist over printable ASCII. -/
def nonReceiptSignedSchema (schema : String) : Bool :=
  if schema.toList.any fun c => c.toNat < 0x20 || 0x7e < c.toNat then true
  else if schema ∈ RECEIPT_SIGNED_SCHEMAS then false
  else namesChit402 ((trim schema.toList).map Char.toLower)

/-- `SIGNED_PAYMENT_ECONOMIC` -/
def SIGNED_PAYMENT_ECONOMIC : List String :=
  ["rail", "ref", "asset", "payee", "gross_amount", "net_amount", "fee_amount",
    "protocol_fee_bps", "platform_fee", "platform_fee_bps", "accounting"]

/-- `EVM_ADDRESS_EXACT` -/
def isEvmAddress (s : String) : Bool :=
  match s.toList with
  | '0' :: 'x' :: digits => digits.length = 40 && digits.all isHexDigit
  | _ => false

/-- `samePartyAddress` -/
def samePartyAddress (outer : Json) (signed : String) : Bool :=
  match outer with
  | .str o => o = signed || (isEvmAddress o && isEvmAddress signed && lowered o = lowered signed)
  | _ => false

def notCovered (key : String) : String := "payment." ++ key ++ " is not covered by the issuer signature"

def notMatching (key : String) : String := "payment." ++ key ++ " does not match the signed value"

def paymentNotCovered : String := "payment is not covered by the issuer signature"

/-- The signed payload names the task of the document. -/
def taskErrors (receipt claims : Obj) : List String :=
  match (asString (get? claims "task_id")).filter (· ≠ "") with
  | none => ["signed payload has no task_id"]
  | some task =>
    if asString (get? receipt "task_id") = some task then [] else ["signed task_id does not match receipt"]

/-- The outer payment's own entries, when it is an object that has any. -/
def outerPayment (receipt : Obj) : Option Obj :=
  ((get? receipt "payment").map entriesOf).filter fun entries => !entries.isEmpty

/-- Economic fields must be signed, and a field on both sides must be the same. -/
def coverErrors (outer : Obj) (signedPayment : Option Json) : List String :=
  match asRecord signedPayment with
  | none => [paymentNotCovered]
  | some signed =>
    (if signed.isEmpty then [paymentNotCovered] else []) ++
    (SIGNED_PAYMENT_ECONOMIC.filter fun key => hasOwn outer key && !hasOwn signed key).map notCovered ++
    (outer.filter fun (key, value) => match get? signed key with
      | none => false
      | some covered => !sameCanonical value covered).map fun entry => notMatching entry.1

/-- One outer party of a foreign payout against the first signed candidate. -/
def partyErrors (outer : Obj) (key : String) (candidates : List (Option Json)) : List String :=
  match get? outer key with
  | none => []
  | some value =>
    match (candidates.filterMap asString).find? (· ≠ "") with
    | none => [notCovered key]
    | some signed => if samePartyAddress value signed then [] else [notMatching key]

/-- `signedReceiptBindingErrors`, on the payload of a valid receipt JWS. -/
def signedReceiptBindingErrors (receipt claims : Obj) : List String :=
  match (asString (get? claims "schema")).filter fun schema => schema ≠ "" && nonReceiptSignedSchema schema with
  | some schema => ["signed payload is not a receipt (schema " ++ schema ++ ")"]
  | none =>
    taskErrors receipt claims ++
    match outerPayment receipt with
    | none => []
    | some outer =>
      let within := fun key => ((get? claims key).map entriesOf).getD []
      coverErrors outer (get? claims "payment") ++
      partyErrors outer "payTo" [get? (within "payment") "payee", get? claims "payee"] ++
      partyErrors outer "payer"
        [get? claims "payer", get? (within "payment") "payer", get? (within "caller_binding") "payer_wallet"]

/-! ## Refusal documents -/

/-- `REFUSAL_SCHEMA` -/
def REFUSAL_SCHEMA : String := "chit402.refusal.v1"

/-- `REFUSAL_SCHEMA_V2` -/
def REFUSAL_SCHEMA_V2 : String := "chit402.refusal.v2"

/-- `isRefusalDocument`: by the outer schema or by the one inside the JWS. -/
def isRefusalDocument (receipt claims : Obj) : Bool :=
  let named := fun schema => schema = some REFUSAL_SCHEMA || schema = some REFUSAL_SCHEMA_V2
  named (asString (get? receipt "schema")) || named (asString (get? claims "schema"))

end ReceiptClaim
