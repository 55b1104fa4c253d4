import Chit402.AnchorRetryProofs

/-! # What one answer of a chain says

    A Solana answer is a transaction and, once that transaction agrees with
    the signed head, a genesis hash.  A Base answer is a transaction with its
    receipt, chain id and tip.  Each is read into a reason, or into no reason
    when it confirms the root. -/

namespace AnchorAnswer

open AnchorRetry JsText

/-! ## Text -/

/-- `text.replace(/^0x/, '')` -/
def strip0x (text : String) : String :=
  match text.toList with
  | '0' :: 'x' :: rest => String.ofList rest
  | _ => text

def isHex64 (text : List Char) : Bool := text.length = 64 && text.all isLowerHexDigit

/-- What the checks take from the language and its number parser. -/
structure Text where
  toLowerCase : String → String
  /-- Lowercase digits stay as they are. -/
  lower_hex : ∀ text, isHex64 text.toList = true → toLowerCase text = text
  /-- `Number(text)`, when that is an integer. -/
  integerOf : String → Option ℤ

/-- Lowercase over ASCII. -/
def asciiText : Text where
  toLowerCase text := String.ofList (text.toList.map Char.toLower)
  lower_hex := by
    intro text h
    have hdigit : ∀ c, isLowerHexDigit c = true → c.toLower = c := by
      intro c hc
      simp only [isLowerHexDigit, Char.isDigit, Bool.or_eq_true, Bool.and_eq_true, decide_eq_true_eq] at hc
      unfold Char.toLower
      rw [dif_neg]
      rintro ⟨hge, hle⟩
      rcases hc with ⟨-, hc⟩ | ⟨hc, -⟩
      · exact absurd (UInt32.le_trans hge hc) (by decide)
      · exact absurd (UInt32.le_trans hc hle) (by decide)
    simp only [isHex64, Bool.and_eq_true, List.all_eq_true] at h
    rw [List.map_congr_left fun c hc => hdigit c (h.2 c hc), List.map_id', String.ofList_toList]
  integerOf _ := none

variable {text : String}

section Reading

variable (js : Text)

def normalizeRoot (root : String) : Option String :=
  let hex := js.toLowerCase (strip0x root)
  if isHex64 hex.toList then some hex else none

def sameBaseAddress (left right : String) : Bool := js.toLowerCase left = js.toLowerCase right

theorem strip0x_hex (h : isHex64 text.toList = true) : strip0x text = text := by
  unfold strip0x
  split
  · rename_i rest heq
    rw [heq] at h
    simp [isHex64, isLowerHexDigit] at h
  · rfl

theorem normalizeRoot_hex {root : String} (h : normalizeRoot js text = some root) : isHex64 root.toList = true := by
  unfold normalizeRoot at h
  dsimp only at h
  split_ifs at h with hhex
  rw [← Option.some.inj h]
  exact hhex

/-! ## The signed head -/

structure BaseAnchor where
  tx : Option String
  chain_id : Option ℚ
  status : Option String
  «from» : Option String

structure SolanaAnchor where
  signature : Option String
  slot : Option ℚ
  cluster : Option String
  memo : Option String
  status : Option String
  fee_payer : Option String

/-- `head.anchor`, of older heads. -/
structure OldAnchor where
  tx : Option String
  chain_id : Option ℚ

structure AnchorHead where
  root : String
  tree_size : Option ℚ
  epoch : Option ℚ
  anchor_tx : Option String
  anchor : Option OldAnchor
  base : Option BaseAnchor
  solana : Option SolanaAnchor

def solanaSignature (head : AnchorHead) : Option String :=
  match head.solana with
  | none => none
  | some sol => if sol.status = some "pending" then none else truthy sol.signature

def baseTxHash (head : AnchorHead) : Option String :=
  if (head.base.bind BaseAnchor.status) = some "pending" then none
  else truthy (head.base.bind BaseAnchor.tx) <|> truthy (head.anchor.bind OldAnchor.tx) <|> truthy head.anchor_tx

def BASE_MAINNET_CHAIN_ID : ℚ := 8453

/-- The chain the head names: a missing or zero id falls back. -/
def expectedChain (head : AnchorHead) : ℚ :=
  let named := fun id : Option ℚ => id.filter (· ≠ 0)
  (named (head.base.bind BaseAnchor.chain_id) <|> named (head.anchor.bind OldAnchor.chain_id)).getD
    BASE_MAINNET_CHAIN_ID

/-! ## Solana -/

def MEMO_PROGRAM_ID : String := "MemoSq4gqABAXKb96qnH8TysNcWxMyWCqXgDLGmfcHr"

def MEMO_PROGRAM_ID_V1 : String := "Memo1UhkJRfHyvLMcVucJwxXeuD728EqVDDwQDxFMNo"

/-- `SOLANA_GENESIS` -/
def SOLANA_GENESIS : List (String × String) :=
  [("mainnet-beta", "5eykt4UsFv8P8NJdTREpY1vzqKqZKvdpKuc147dw2N9d"),
    ("devnet", "EtWTRABZaYq6iMfeYKouRu166VU2xqa1wcaWoxPkrZBG"),
    ("testnet", "4uhcVJyU9pJkvQyS88uRDiswHXSCkY3zQawwpjk2NsNY")]

/-- Names an object answers to without having them. -/
def inheritedNames : List String :=
  ["constructor", "__defineGetter__", "__defineSetter__", "hasOwnProperty", "__lookupGetter__", "__lookupSetter__",
    "isPrototypeOf", "propertyIsEnumerable", "toString", "valueOf", "__proto__", "toLocaleString"]

/-- `SOLANA_GENESIS[cluster]`. An inherited name gives a value that is no hash. -/
def genesisOf (cluster : String) : Option (Option String) :=
  match SOLANA_GENESIS.lookup cluster with
  | some hash => some (some hash)
  | none => if cluster ∈ inheritedNames then some none else none

inductive Parsed
  | text (s : String)
  | record (memo info : Option String)

structure SolanaIx where
  program : Option String
  programId : Option String
  parsed : Option Parsed

inductive AccountKey
  | text (s : String)
  | record (pubkey : Option String) (signer : Option Bool)

structure SolanaAnchorTx where
  slot : Option ℚ
  confirmationStatus : Option String
  commitment : Option String
  /-- `meta.err` is truthy. -/
  err : Bool
  logMessages : List String
  innerInstructions : List (List SolanaIx)
  signatures : List String
  instructions : List SolanaIx
  accountKeys : List AccountKey

def isMemoIx (ix : SolanaIx) : Bool :=
  ix.program = some "spl-memo" || ix.programId = some MEMO_PROGRAM_ID || ix.programId = some MEMO_PROGRAM_ID_V1

def memoOfIx (ix : SolanaIx) : Option String :=
  if isMemoIx ix then
    match ix.parsed with
    | none => none
    | some (.text s) => some s
    | some (.record memo info) => memo <|> info
  else none

/-- A match of `Memo \(len \d+\): "(.*)"` that starts here. -/
def memoHere (text : List Char) : Option (List Char) :=
  match afterText "Memo (len " text with
  | none => none
  | some rest =>
    if (rest.takeWhile Char.isDigit).isEmpty then none
    else match afterText "): \"" (rest.dropWhile Char.isDigit) with
      | none => none
      | some quoted =>
        -- the group is greedy and stays on its line
        match (quoted.takeWhile fun c => !isLineEnd c).reverse.dropWhile (· ≠ '"') with
        | [] => none
        | _ :: inside => some inside.reverse

def memoOfLog : List Char → Option String
  | [] => none
  | c :: rest =>
    match memoHere (c :: rest) with
    | some memo => some (String.ofList memo)
    | none => memoOfLog rest

def extractMemos (tx : SolanaAnchorTx) : List String :=
  let found := tx.instructions.filterMap memoOfIx ++ tx.innerInstructions.flatten.filterMap memoOfIx
    ++ tx.logMessages.filterMap fun line => memoOfLog line.toList
  found.foldl (fun seen memo => if memo ≠ "" ∧ memo ∉ seen then seen ++ [memo] else seen) []

structure ParsedAnchorMemo where
  version : ℕ
  scope : String
  day : String
  root : String
  prev : String
  epoch : Option ℤ
  prev_epoch_root : Option String
  prev_epoch_size : Option ℤ
  bundle_index_hash : Option String
  deriving DecidableEq

def isScope (text : List Char) : Bool :=
  1 ≤ text.length && text.length ≤ 64 && text.all fun c => c.isAlphanum || c = '_' || c = '-'

/-- `\d{4}-\d{2}-\d{2}` -/
def isDay (text : List Char) : Bool :=
  match text with
  | [a, b, c, d, '-', e, f, '-', g, h] => [a, b, c, d, e, f, g, h].all Char.isDigit
  | _ => false

def memoIdentity (scope day root prev : List Char) : Option ParsedAnchorMemo :=
  if isScope scope && isDay day && isHex64 root && isHex64 prev then
    some {
      version := 1
      scope := String.ofList scope
      day := String.ofList day
      root := String.ofList root
      prev := String.ofList prev
      epoch := none
      prev_epoch_root := none
      prev_epoch_size := none
      bundle_index_hash := none }
  else none

def parseAnchorMemo (memo : String) : Option ParsedAnchorMemo :=
  match memo.toList.splitOn ':' with
  | [mark, kind, version, scope, day, root, prev] =>
    if mark = "chit402".toList ∧ kind = "root".toList ∧ version = "v1".toList then memoIdentity scope day root prev
    else none
  | [mark, kind, version, scope, day, root, prev, epoch, prevEpoch, size, bundle] =>
    if mark = "chit402".toList ∧ kind = "root".toList ∧ version = "v2".toList then
      match memoIdentity scope day root prev, js.integerOf (String.ofList epoch), js.integerOf (String.ofList size) with
      | some base, some epoch, some size =>
        if 1 ≤ epoch ∧ isHex64 prevEpoch ∧ isHex64 bundle ∧ 0 ≤ size then
          some { base with
            version := 2
            epoch := some epoch
            prev_epoch_root := some (String.ofList prevEpoch)
            prev_epoch_size := some size
            bundle_index_hash := some (String.ofList bundle) }
        else none
      | _, _, _ => none
    else none
  | _ => none

/-- Fee payer is the first account, unless it is explicitly no signer. -/
def solanaFeePayer (tx : SolanaAnchorTx) : Option String :=
  match tx.accountKeys with
  | [] => none
  | .text s :: _ => some s
  | .record pubkey signer :: _ => if signer = some false then none else truthy pubkey

/-- One attempt's reads. The genesis hash is what the endpoint would answer. -/
structure SolanaAnswer where
  tx : Except RpcError (Option SolanaAnchorTx)
  genesis : Except RpcError String

structure SolanaFound where
  memo : String
  slot : Option ℚ

/-- The memo carries the root, and is the one the head recorded if it recorded one. -/
def memoMatches (head : AnchorHead) (root memo : String) : Bool :=
  (parseAnchorMemo js memo).any (·.root = root) && contains memo.toList root
    && (truthy (head.solana.bind SolanaAnchor.memo)).all (memo = ·)

/-- The cluster, slot and fee payer, then the genesis read, so that a failed read hides no mismatch. -/
def solanaHeadCheck (head : AnchorHead) (signedPayer : String) (tx : SolanaAnchorTx) (genesis : Except RpcError String)
    (memo : String) : Except String SolanaFound :=
  match truthy (head.solana.bind SolanaAnchor.cluster) with
  | none => .error "no_cluster"
  | some cluster =>
    match genesisOf cluster with
    | none => .error "unknown_cluster"
    | some expectedGenesis =>
      if (head.solana.bind SolanaAnchor.slot).any (fun slot => tx.slot.any (· ≠ slot)) then .error "slot_mismatch"
      else if solanaFeePayer tx ≠ some signedPayer then .error "fee_payer_mismatch"
      else match genesis with
        | .error err => .error (mapAnchorRpcError err .solana)
        | .ok genesis => if some genesis = expectedGenesis then .ok ⟨memo, tx.slot⟩ else .error "cluster_mismatch"

def solanaTxCheck (head : AnchorHead) (root signature signedPayer : String) (tx : SolanaAnchorTx)
    (genesis : Except RpcError String) : Except String SolanaFound :=
  if (tx.confirmationStatus <|> tx.commitment).any (· ≠ "finalized") then .error "not_finalized"
  else if tx.err then .error "tx_failed"
  else if tx.signatures.head?.any (· ≠ signature) then .error "signature_mismatch"
  else match (extractMemos tx).filter (memoMatches js head root) with
    | [] => .error "memo_mismatch"
    | memo :: _ => solanaHeadCheck head signedPayer tx genesis memo

def solanaCheck (head : AnchorHead) (root signature signedPayer : String) (a : SolanaAnswer) :
    Except String SolanaFound :=
  match a.tx with
  | .error err => .error (mapAnchorRpcError err .solana)
  | .ok none => .error "tx_not_found"
  | .ok (some tx) => solanaTxCheck js head root signature signedPayer tx a.genesis

/-! ## Base -/

/-- A field an RPC may fill with a number or a text. -/
inductive Value
  | absent
  | number (q : ℚ)
  | nonFinite
  | text (s : String)

def MAX_SAFE_INTEGER : ℕ := 2 ^ 53 - 1

def isSafeInteger (q : ℚ) : Bool := q.den = 1 && q.num.natAbs ≤ MAX_SAFE_INTEGER

/-- `value == null || value === ''` -/
def Value.isMissing : Value → Bool
  | .absent => true
  | .text s => s = ""
  | _ => false

def digitValue (c : Char) : ℕ :=
  if c.isDigit then c.toNat - '0'.toNat else c.toLower.toNat - 'a'.toNat + 10

def digitsValue (base : ℕ) (digits : List Char) : ℕ := digits.foldl (fun n c => base * n + digitValue c) 0

def safe (n : ℕ) : Option ℕ := if n ≤ MAX_SAFE_INTEGER then some n else none

def parseQuantity : Value → Option ℕ
  | .absent | .nonFinite => none
  | .number q => if isSafeInteger q && 0 ≤ q then some q.num.toNat else none
  | .text s =>
    match trim s.toList with
    | '0' :: 'x' :: digits => if digits ≠ [] && digits.all isHexDigit then safe (digitsValue 16 digits) else none
    | digits =>
      if digits = ['0'] || (digits.head?.any (fun c => '1' ≤ c && c ≤ '9') && digits.all Char.isDigit) then
        safe (digitsValue 10 digits)
      else none

def readQuantity (value : Value) : Option ℕ := if value.isMissing then none else parseQuantity value

def parseReceiptStatus (value : Value) : Option ℕ := (parseQuantity value).filter (· ≤ 1)

structure BaseAnchorTx where
  hash : Option String
  input : Option String
  chainId : Value
  «from» : Option String
  status : Value
  blockNumber : Value
  tipBlockNumber : Value
  txChainId : Value
  rpcCode : Option String

/-- Twelve confirmations is not finality. -/
def BASE_ANCHOR_MIN_CONFIRMATIONS : ℤ := 12

/-- A refusal: its reason, and the chain id it reports. -/
structure BaseRefusal where
  reason : String
  chainId : Option ℕ

def assessBaseAnchor (tx : Option BaseAnchorTx) (expectedChain : ℚ) : Except BaseRefusal ℕ :=
  match tx with
  | none => .error ⟨"tx_not_found", none⟩
  | some tx =>
    match truthy tx.rpcCode with
    | some code => .error ⟨code, none⟩
    | none =>
      match readQuantity tx.chainId with
      | none => .error ⟨"chain_id_missing", none⟩
      | some chainId =>
        if (chainId : ℚ) ≠ expectedChain then .error ⟨"chain_mismatch", some chainId⟩
        else if ¬ tx.txChainId.isMissing ∧ parseQuantity tx.txChainId ≠ some chainId then
          .error ⟨"chain_mismatch", parseQuantity tx.txChainId⟩
        else if tx.status.isMissing then .error ⟨"receipt_missing", some chainId⟩
        else match parseReceiptStatus tx.status with
          | none => .error ⟨"receipt_status_missing", some chainId⟩
          | some status =>
            if status = 0 then .error ⟨"tx_reverted", some chainId⟩
            else match readQuantity tx.blockNumber with
              | none => .error ⟨"block_number_missing", some chainId⟩
              | some blockNumber =>
                match readQuantity tx.tipBlockNumber with
                | none => .error ⟨"base_rpc_null", some chainId⟩
                | some tip =>
                  if (tip : ℤ) - blockNumber < BASE_ANCHOR_MIN_CONFIRMATIONS then
                    .error ⟨"confirmation_shallow", some chainId⟩
                  else .ok chainId

/-- Content mismatch on a Base tx in hand. Never reads the network. -/
def baseContentMismatch (tx : BaseAnchorTx) (txHash root signedFrom : String) (expectedChain : ℚ) : Option String :=
  if (truthy tx.hash).any (fun hash => js.toLowerCase hash ≠ js.toLowerCase txHash) then some "tx_hash_mismatch"
  else if ¬ tx.status.isMissing ∧ parseReceiptStatus tx.status = some 0 then some "tx_reverted"
  else if ¬ tx.txChainId.isMissing ∧ (parseQuantity tx.txChainId).map Nat.cast ≠ some expectedChain then
    some "chain_mismatch"
  else if tx.input.any (fun input => strip0x (js.toLowerCase input) ≠ root) then some "calldata_mismatch"
  else if (truthy tx.from).any (fun sender => !sameBaseAddress js sender signedFrom) then some "sender_mismatch"
  else none

abbrev BaseAnswer := Except RpcError (Option BaseAnchorTx)

structure BaseFound where
  tx : String
  chainId : ℕ

def baseContent (head : AnchorHead) (root txHash signedFrom : String) (tx : Option BaseAnchorTx) : Option String :=
  match tx with
  | none => none
  | some tx =>
    if tx.rpcCode = some "anchor_inconsistent" then none
    else baseContentMismatch js tx txHash root signedFrom (expectedChain head)

/-- A mismatch seen on the transaction outranks a side read that failed or came back short. -/
def baseTxCheck (head : AnchorHead) (root txHash signedFrom : String) (tx : Option BaseAnchorTx) :
    Except BaseRefusal BaseFound :=
  match assessBaseAnchor tx (expectedChain head), baseContent js head root txHash signedFrom tx with
  | .error refusal, content =>
    match content with
    | some reason =>
      if isUncheckedAnchorReason (some refusal.reason) then .error ⟨reason, none⟩ else .error refusal
    | none => .error refusal
  | .ok chainId, _ =>
    if (truthy (tx.bind BaseAnchorTx.hash)).any (fun hash => js.toLowerCase hash ≠ js.toLowerCase txHash) then
      .error ⟨"tx_hash_mismatch", some chainId⟩
    else if strip0x (js.toLowerCase ((tx.bind BaseAnchorTx.input).getD "")) ≠ root then
      .error ⟨"calldata_mismatch", none⟩
    else match truthy (tx.bind BaseAnchorTx.from) with
      | none => .error ⟨"sender_mismatch", none⟩
      | some sender =>
        if sameBaseAddress js sender signedFrom then
          .ok ⟨(truthy (tx.bind BaseAnchorTx.hash)).getD txHash, chainId⟩
        else .error ⟨"sender_mismatch", none⟩

def baseCheck (head : AnchorHead) (root txHash signedFrom : String) (a : BaseAnswer) : Except BaseRefusal BaseFound :=
  match a with
  | .error err => .error ⟨mapAnchorRpcError err .base, none⟩
  | .ok tx => baseTxCheck js head root txHash signedFrom tx

/-! ## References -/

def BASE58_ALPHABET : List Char := "123456789ABCDEFGHJKLMNPQRSTUVWXYZabcdefghijkmnopqrstuvwxyz".toList

/-- Decoded byte length of a base58 string. -/
def base58Length (value : List Char) : Option ℕ :=
  if value = [] ∨ 100 < value.length ∨ value.any (· ∉ BASE58_ALPHABET) then none
  else
    let n := value.foldl (fun n c => 58 * n + BASE58_ALPHABET.idxOf c) 0
    let bytes := if n = 0 then 0 else Nat.log2 n / 8 + 1
    some ((value.takeWhile (· = '1')).length + bytes)

def isSolanaSignatureRef (value : String) : Bool := base58Length value.toList = some 64

def isBaseTxHashRef (value : String) : Bool :=
  match value.toList with
  | '0' :: 'x' :: digits => digits.length = 64 && digits.all isHexDigit
  | _ => false

/-! ## What a confirmation is -/

/-- **A Solana answer confirms the root**: the finalized transaction the head
    names succeeded, a memo of it carries the root, its fee payer is the signed
    one, and the endpoint's genesis hash is the cluster's. -/
structure SolanaConfirms (head : AnchorHead) (root signature signedPayer : String) (tx : SolanaAnchorTx)
    (genesis : String) : Prop where
  finalized : ∀ c ∈ tx.confirmationStatus <|> tx.commitment, c = "finalized"
  succeeded : tx.err = false
  named : ∀ s ∈ tx.signatures.head?, s = signature
  memo : ∃ memo ∈ extractMemos tx, (∃ parsed ∈ parseAnchorMemo js memo, parsed.root = root)
    ∧ contains memo.toList root = true ∧ ∀ recorded ∈ truthy (head.solana.bind SolanaAnchor.memo), memo = recorded
  cluster : ∃ cluster ∈ truthy (head.solana.bind SolanaAnchor.cluster), genesisOf cluster = some (some genesis)
  slot : ∀ slot ∈ head.solana.bind SolanaAnchor.slot, ∀ s ∈ tx.slot, s = slot
  payer : solanaFeePayer tx = some signedPayer

/-- **A Base answer confirms the root**: the transaction succeeded deep enough
    on the head's chain, its calldata is the root, and the signed wallet sent it. -/
structure BaseConfirms (head : AnchorHead) (root txHash signedFrom : String) (tx : BaseAnchorTx) : Prop where
  settled : ∃ chainId, assessBaseAnchor (some tx) (expectedChain head) = .ok chainId
  named : ∀ hash ∈ truthy tx.hash, js.toLowerCase hash = js.toLowerCase txHash
  calldata : strip0x (js.toLowerCase (tx.input.getD "")) = root
  sender : ∃ sender ∈ truthy tx.from, sameBaseAddress js sender signedFrom = true

end Reading

variable {tx : SolanaAnchorTx} {a : SolanaAnswer} {found : SolanaFound}
  {memo signature signedFrom signedPayer txHash : String}

section Confirmations

variable {js : Text} {head : AnchorHead} {root : String}

theorem any_ne_eq_false {α β : Type} [DecidableEq β] {f : α → β} {o : Option α} {a : β} :
    ¬ o.any (fun x => f x ≠ a) = true ↔ ∀ x ∈ o, f x = a := by
  cases o <;> simp

theorem memoMatches_iff :
    memoMatches js head root memo = true ↔ (∃ parsed ∈ parseAnchorMemo js memo, parsed.root = root)
      ∧ contains memo.toList root = true ∧ ∀ recorded ∈ truthy (head.solana.bind SolanaAnchor.memo),
        memo = recorded := by
  simp [memoMatches, and_assoc, Option.any_eq_true, Option.all_eq_true]

theorem solanaHeadCheck_ok {answered : Except RpcError String}
    (h : solanaHeadCheck head signedPayer tx answered memo = .ok found) : ∃ genesis, answered = .ok genesis
      ∧ (∃ cluster ∈ truthy (head.solana.bind SolanaAnchor.cluster), genesisOf cluster = some (some genesis))
      ∧ (∀ slot ∈ head.solana.bind SolanaAnchor.slot, ∀ s ∈ tx.slot, s = slot)
      ∧ solanaFeePayer tx = some signedPayer := by
  unfold solanaHeadCheck at h
  split at h
  · cases h
  · rename_i cluster hcluster
    split at h
    · cases h
    · rename_i expected hexpected
      split_ifs at h with hslot hpayer
      split at h
      · cases h
      · rename_i genesis
        split_ifs at h with hsame
        refine ⟨genesis, rfl, ⟨cluster, hcluster, by rw [hsame, hexpected]⟩, ?_, not_not.1 hpayer⟩
        intro slot hhead s hs
        by_contra hne
        refine hslot ?_
        rw [Option.mem_def.1 hhead, Option.mem_def.1 hs]
        simpa using hne

/-- **What a confirming Solana answer is**, read off the checks in their order. -/
theorem solanaCheck_ok (h : solanaCheck js head root signature signedPayer a = .ok found) :
    ∃ tx genesis, a.tx = .ok (some tx) ∧ a.genesis = .ok genesis
      ∧ SolanaConfirms js head root signature signedPayer tx genesis := by
  unfold solanaCheck at h
  split at h
  · cases h
  · cases h
  · rename_i tx htx
    unfold solanaTxCheck at h
    split_ifs at h with hfinal herr hsigned
    split at h
    · cases h
    · rename_i memo rest hmemos
      obtain ⟨genesis, hgenesis, hcluster, hslot, hpayer⟩ := solanaHeadCheck_ok h
      have hmemo : memo ∈ (extractMemos tx).filter (memoMatches js head root) := by
        rw [hmemos]
        exact List.mem_cons_self
      rw [List.mem_filter, memoMatches_iff] at hmemo
      exact ⟨tx, genesis, htx, hgenesis, any_ne_eq_false.1 hfinal, by simpa using herr, any_ne_eq_false.1 hsigned,
        ⟨memo, hmemo⟩, hcluster, hslot, hpayer⟩

theorem baseCheck_ok {a : BaseAnswer} {found : BaseFound} (h : baseCheck js head root txHash signedFrom a = .ok found) :
    ∃ tx, a = .ok (some tx) ∧ BaseConfirms js head root txHash signedFrom tx := by
  unfold baseCheck at h
  split at h
  · cases h
  · rename_i tx
    unfold baseTxCheck at h
    cases hassess : assessBaseAnchor tx (expectedChain head) with
    | error refusal =>
      rw [hassess] at h
      dsimp only at h
      split at h
      · split_ifs at h
      · cases h
    | ok chainId =>
      cases tx with
      | none => cases hassess
      | some tx =>
        rw [hassess] at h
        dsimp only [Option.bind_some] at h
        split_ifs at h with hnamed hdata
        split at h
        · cases h
        · rename_i sender hsender
          split_ifs at h with hsame
          exact ⟨tx, rfl, ⟨chainId, hassess⟩, any_ne_eq_false.1 hnamed, not_not.1 hdata, sender, hsender, hsame⟩

theorem baseCheck_of_confirms {tx : BaseAnchorTx} (h : BaseConfirms js head root txHash signedFrom tx) :
    ∃ found, baseCheck js head root txHash signedFrom (.ok (some tx)) = .ok found := by
  obtain ⟨chainId, hassess⟩ := h.settled
  obtain ⟨sender, hsender, hsame⟩ := h.sender
  unfold baseCheck baseTxCheck
  dsimp only
  rw [hassess]
  dsimp only [Option.bind_some]
  rw [if_neg (any_ne_eq_false.2 h.named), if_neg (not_not.2 h.calldata), Option.mem_def.1 hsender]
  dsimp only
  rw [if_pos hsame]
  exact ⟨_, rfl⟩

theorem solanaCheck_of_confirms {genesis : String} (htx : a.tx = .ok (some tx)) (hgenesis : a.genesis = .ok genesis)
    (h : SolanaConfirms js head root signature signedPayer tx genesis) :
    ∃ found, solanaCheck js head root signature signedPayer a = .ok found := by
  obtain ⟨memo, hmemo, hmatch⟩ := h.memo
  obtain ⟨cluster, hcluster, hgenesisOf⟩ := h.cluster
  have hslot : ¬ (head.solana.bind SolanaAnchor.slot).any (fun slot => tx.slot.any (· ≠ slot)) = true := by
    rw [Option.any_eq_true]
    rintro ⟨slot, hhead, hother⟩
    exact any_ne_eq_false.2 (h.slot slot hhead) hother
  obtain ⟨first, rest, hmemos⟩ : ∃ first rest, (extractMemos tx).filter (memoMatches js head root) = first :: rest := by
    refine List.exists_cons_of_ne_nil (List.ne_nil_of_mem (a := memo) ?_)
    exact List.mem_filter.2 ⟨hmemo, memoMatches_iff.2 hmatch⟩
  unfold solanaCheck
  rw [htx]
  dsimp only
  unfold solanaTxCheck
  rw [if_neg (any_ne_eq_false.2 h.finalized), if_neg (by rw [h.succeeded]; exact Bool.false_ne_true),
    if_neg (any_ne_eq_false.2 h.named), hmemos]
  dsimp only
  unfold solanaHeadCheck
  rw [Option.mem_def.1 hcluster]
  dsimp only
  rw [hgenesisOf]
  dsimp only
  rw [if_neg hslot, if_neg (not_not.2 h.payer), hgenesis]
  dsimp only
  rw [if_pos rfl]
  exact ⟨_, rfl⟩

end Confirmations

end AnchorAnswer
