import Chit402.BalanceSheetProofs
import Chit402.OrderedMapProofs
import Chit402.JsTextProofs

/-! # The Solana payer check

    A receipt with a `solana:` reference is checked against the settled
    transaction: a USDC transfer of the gross amount under the payer's
    authority, or a fall of the payer's own USDC accounts, together with a
    credit to the accounts of the signed payee.  The three summaries are taken
    of the whole transaction, and nothing ties the payer's transfer to the
    payee's credit. -/

namespace SolanaPayer

open BalanceSheet
open JsText (trimmed)

/-! ## A parsed transaction -/

/-- A row of `preTokenBalances` or `postTokenBalances`. -/
structure TokenBalance where
  accountIndex : ℕ
  mint : String
  owner : Option String
  amount : Option ℕ
deriving DecidableEq

/-- `BigInt(row.uiTokenAmount?.amount || '0')` -/
def TokenBalance.units (row : TokenBalance) : ℕ := row.amount.getD 0

structure AccountKey where
  pubkey : String
  signer : Bool
deriving DecidableEq

/-- The `info` of a parsed token instruction. `tokenAmount` is its raw amount. -/
structure Info where
  mint : Option String := none
  source : Option String := none
  destination : Option String := none
  authority : Option String := none
  sourceOwner : Option String := none
  multisigAuthority : Option String := none
  tokenAmount : Option ℕ := none
  amount : Option ℕ := none
deriving DecidableEq

structure Parsed where
  type : String
  info : Info
deriving DecidableEq

structure Instruction where
  program : Option String
  programId : Option String
  parsed : Option Parsed
deriving DecidableEq

/-- A `jsonParsed` transaction: the balances before and after list a token
    account once each. -/
structure Tx where
  failed : Bool
  preTokenBalances : List TokenBalance
  postTokenBalances : List TokenBalance
  accountKeys : List AccountKey
  instructions : List Instruction
  pre_once : (preTokenBalances.map TokenBalance.accountIndex).Nodup
  post_once : (postTokenBalances.map TokenBalance.accountIndex).Nodup

def TOKEN_PROGRAM_ID : String := "TokenkegQfeZyiNwAJbNbGKPFXCWuBvf9Ss623VQ5DA"

/-- A character of `/[1-9A-HJ-NP-Za-km-z]/`. -/
def isBase58 (c : Char) : Bool :=
  ('1' ≤ c && c ≤ '9') || ('A' ≤ c && c ≤ 'H') || ('J' ≤ c && c ≤ 'N') || ('P' ≤ c && c ≤ 'Z') ||
    ('a' ≤ c && c ≤ 'k') || ('m' ≤ c && c ≤ 'z')

/-- `isSolanaBase58Pubkey` -/
def isSolanaBase58Pubkey (value : String) : Bool :=
  value.toList.all isBase58 && 32 ≤ value.toList.length && value.toList.length ≤ 44

/-- `parseSolanaPaymentRef` -/
def parseSolanaPaymentRef (paymentRef : Option String) : Option String :=
  let text := JsText.trim (paymentRef.getD "").toList
  let scheme := "solana:".toList
  if (text.take scheme.length).map Char.toLower ≠ scheme then none
  else
    let sig := JsText.trim (text.drop scheme.length)
    if sig = [] then none else some (String.ofList sig)

/-! ## Transfers -/

/-- `tokenAccountMint` -/
def tokenAccountMint (tx : Tx) (address : String) : Option String :=
  if address = "" then none
  else match tx.accountKeys.findIdx? fun key => key.pubkey = address with
    | none => none
    | some index =>
      let rows := (tx.preTokenBalances ++ tx.postTokenBalances).filter fun row => row.accountIndex = index
      match rows.map TokenBalance.mint with
      | [] => none
      | mint :: mints => if mints.all (· = mint) then some mint else none

structure Transfer where
  authority : String
  amount : ℕ
  mint : String
deriving DecidableEq

/-- `a || b || ''` -/
def firstText (a b : Option String) : String :=
  match a.filter (· ≠ "") with
  | some text => text
  | none => b.getD ""

/-- The body of the loop of `extractUsdcTransfersFromTx`. -/
def transferOf (tx : Tx) (mint : String) (ix : Instruction) : Option Transfer :=
  if ix.program ≠ some "spl-token" && ix.programId ≠ some TOKEN_PROGRAM_ID then none
  else match ix.parsed with
    | none => none
    | some ⟨type, info⟩ =>
      let raw := info.tokenAmount <|> info.amount
      if type = "transferChecked" then
        let authority := firstText info.authority info.sourceOwner
        if info.mint.getD "" ≠ mint || authority = "" then none
        else raw.map fun amount => ⟨authority, amount, mint⟩
      else if type = "transfer" then
        -- a legacy transfer names no mint: both accounts must be of the expected one
        let authority := firstText info.authority info.multisigAuthority
        if tokenAccountMint tx (info.source.getD "") ≠ some mint ||
            tokenAccountMint tx (info.destination.getD "") ≠ some mint || authority = "" then none
        else raw.map fun amount => ⟨authority, amount, mint⟩
      else none

structure Entry where
  pre : ℕ
  post : ℕ
  owner : String
  mint : String

/-- One row of `inferUsdcOutflowFromBalances`: the entry's owner is the one it
    was first listed under. -/
def record (mint : String) (write : Entry → ℕ → Entry) (byIndex : OrderedMap ℕ Entry) (row : TokenBalance) :
    OrderedMap ℕ Entry :=
  match row.owner.filter (· ≠ "") with
  | none => byIndex
  | some owner =>
    if row.mint ≠ mint then byIndex
    else
      let entry := (byIndex.lookup row.accountIndex).getD ⟨0, 0, owner, row.mint⟩
      OrderedMap.set byIndex row.accountIndex (write entry row.units)

/-- The row is of the owner's account of this mint. -/
def isOf (owner mint : String) (row : TokenBalance) : Bool := row.mint = mint && row.owner = some owner

structure Verification where
  checked : Bool
  valid : Bool
  signature : Option String := none
  payerWallet : Option String := none
  expectedAmount : Option String := none
  transferredAmount : Option String := none
  mint : Option String := none
  reason : Option String := none
deriving DecidableEq

/-- `VerifySolanaPayerInput`. `grossAmount` is the integer `BigInt` reads from
    it, and `none` where that throws. -/
structure Input where
  paymentRef : Option String
  payerWallet : Option String
  grossAmount : Option ℤ
  mint : Option String
  payee : Option String

def Input.payer (input : Input) : String := trimmed (input.payerWallet.getD "")

/-- The account at `address` is the owner's, before the transaction or after it. -/
def ownsAccount (tx : Tx) (owner mint address : String) : Bool :=
  match tx.accountKeys.findIdx? fun key => key.pubkey = address with
  | none => false
  | some index =>
    (tx.preTokenBalances ++ tx.postTokenBalances).any fun row => row.accountIndex = index && isOf owner mint row

/-- The account an instruction debits. -/
def Instruction.source (ix : Instruction) : String := (ix.parsed.bind fun p => p.info.source).getD ""

/-- The account an instruction credits. -/
def Instruction.destination (ix : Instruction) : String := (ix.parsed.bind fun p => p.info.destination).getD ""

/-- The USDC that the transfers of one kind move. -/
def moved (tx : Tx) (mint : String) (kind : Instruction → Transfer → Bool) : ℕ :=
  (tx.instructions.map fun ix =>
    match transferOf tx mint ix with
    | none => 0
    | some t => if kind ix t then t.amount else 0).sum

/-- A transfer into an account of the wallet's. -/
def into (tx : Tx) (wallet mint : String) (ix : Instruction) : Bool := ownsAccount tx wallet mint ix.destination

/-- One transfer of the amount, under the payer's authority, to the payee. -/
def Sends (tx : Tx) (payer payee mint : String) (gross : ℤ) : Prop :=
  ∃ ix ∈ tx.instructions, ∃ t, transferOf tx mint ix = some t ∧ t.authority = payer ∧ gross ≤ t.amount ∧
    into tx payee mint ix = true

variable {input : Input} {mint payee payer : String} {fetchTransaction : String → Except String (Option Tx)} {tx : Tx}
  {gross : ℤ}

/-- The transaction the check is about. -/
structure Fetched (fetchTransaction : String → Except String (Option Tx)) (input : Input) (tx : Tx) (gross : ℤ) :
    Prop where
  payer : isSolanaBase58Pubkey input.payer = true
  amount : input.grossAmount = some gross
  positive : 0 < gross
  found : ∃ signature, parseSolanaPaymentRef input.paymentRef = some signature ∧
    fetchTransaction signature = .ok (some tx)

theorem Fetched.unique {tx' : Tx} {gross' : ℤ} (h : Fetched fetchTransaction input tx gross)
    (h' : Fetched fetchTransaction input tx' gross') : tx = tx' ∧ gross = gross' := by
  obtain ⟨signature, href, htx⟩ := h.found
  obtain ⟨signature', href', htx'⟩ := h'.found
  cases href.symm.trans href'
  cases htx.symm.trans htx'
  cases h.amount.symm.trans h'.amount
  exact ⟨rfl, rfl⟩

end SolanaPayer
