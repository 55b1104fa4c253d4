import Chit402.HexDigestProofs
import Chit402.RlpProofs
import Mathlib.Data.Nat.Init

/-! # Checkpoint transactions

    `eip1559Serialize` writes a transaction as `0x02` and an RLP list of its
    fields, and `eip1559Decode` reads one.  The reader asks for the number
    of fields and nothing else: RLP makes the bytes of a list unique, but
    which lists are transactions it cannot say. -/

namespace Eip1559

open EcdsaBytes ExceptFlow HexDigest Rlp Solidity

inductive TxError where
  | badTx (message : String)
  | badHex
  | rlpNegative
  | rlp (e : Invalid)
  /-- `BigInt` of a text that is no number. -/
  | syntaxError
deriving DecidableEq

/-! ## Bytes and text -/

/-- Bytes, or the hex text of some. -/
inductive Input where
  | text (text : List Char)
  | bytes (bytes : List UInt8)

/-- Without a prefix `0x`, in either case. -/
def stripped : List Char → List Char
  | '0' :: x :: rest => if x.toLower = 'x' then rest else '0' :: x :: rest
  | text => text

def hexToBytes (text : List Char) : Except TxError (List UInt8) :=
  let hex := (stripped text).map Char.toLower
  if hex.length % 2 ≠ 0 ∨ ∃ c ∈ hex, c ∉ hexAlphabet then .error .badHex else .ok (fromHexChars hex)

def inputBytes : Input → Except TxError (List UInt8)
  | .text text => hexToBytes text
  | .bytes bytes => .ok bytes

def addressBytes («to» : Input) : Except TxError (List UInt8) := do
  let bytes ← inputBytes «to»
  if bytes.length ≠ 20 then .error (.badTx "eip1559 to must be 20 bytes") else .ok bytes

def dataBytes : Option Input → Except TxError (List UInt8)
  | none => .ok []
  | some (.text ['0', 'x']) => .ok []
  | some data => inputBytes data

def requireZeroValue (value : Option ℤ) : Except TxError ℤ :=
  if value.getD 0 ≠ 0 then .error (.badTx "checkpoint tx value must be zero") else .ok 0

/-! ## Writing -/

structure Tx where
  chainId : ℤ
  nonce : ℤ
  maxPriorityFeePerGas : ℤ
  maxFeePerGas : ℤ
  gasLimit : ℤ
  «to» : Input
  value : Option ℤ
  data : Option Input

structure Signature where
  yParity : ℤ
  r : List UInt8
  s : List UInt8

def int (value : ℤ) : Except TxError (List UInt8) :=
  match rlpInt value with
  | some bytes => .ok bytes
  | none => .error .rlpNegative

def eip1559Body (tx : Tx) : Except TxError (List (List UInt8)) := do
  let chainId ← int tx.chainId
  let nonce ← int tx.nonce
  let maxPriorityFeePerGas ← int tx.maxPriorityFeePerGas
  let maxFeePerGas ← int tx.maxFeePerGas
  let gasLimit ← int tx.gasLimit
  let «to» ← addressBytes tx.to
  let zero ← requireZeroValue tx.value
  let value ← int zero
  let data ← dataBytes tx.data
  .ok [chainId, nonce, maxPriorityFeePerGas, maxFeePerGas, gasLimit, rlpBytes «to», value, rlpBytes data, rlpList []]

def eip1559Unsigned (tx : Tx) : Except TxError (List UInt8) := do
  let body ← eip1559Body tx
  .ok (0x02 :: rlpList body)

def eip1559Serialize (tx : Tx) (sig : Signature) : Except TxError (List UInt8) := do
  revertIf (sig.yParity ≠ 0 ∧ sig.yParity ≠ 1) (.badTx "y parity must be 0 or 1")
  revertIf (sig.r.length ≠ 32 ∨ sig.s.length ≠ 32) (.badTx "r and s must be 32 bytes")
  let fields ← eip1559Body tx
  let yParity ← int sig.yParity
  let r ← int (bytesToBig sig.r)
  let s ← int (bytesToBig sig.s)
  .ok (0x02 :: rlpList (fields ++ [yParity, r, s]))

/-! ## Reading -/

/-- `BigInt` of an item. The text of a single byte is its number, that of nothing is empty and reads as zero,
    and two elements have a comma between them. -/
def bigInt : Value → Except TxError ℕ
  | .bytes [] => .ok 0
  | .bytes [b] => .ok b.toNat
  | .bytes _ => .error .syntaxError
  | .list [] => .ok 0
  | .list [item] => bigInt item
  | .list _ => .error .syntaxError

/-- `rlpIntValue`, of bytes as of a list. -/
def rlpIntValue : Value → Except TxError ℕ
  | .bytes bytes => .ok (bytesToBig bytes)
  | .list items => items.foldlM (fun value item => do
      let low ← bigInt item
      .ok (256 * value + low)) 0

mutual

/-- `toString` of an item: its elements with commas between them. -/
def textOf : Value → List Char
  | .bytes bytes => [','].intercalate (bytes.map fun b => Nat.toDigits 10 b.toNat)
  | .list items => [','].intercalate (textsOf items)

def textsOf : List Value → List (List Char)
  | [] => []
  | item :: rest => textOf item :: textsOf rest

end

/-- `padStart(width, '0')` -/
def padStart (width : ℕ) (text : List Char) : List Char := List.replicate (width - text.length) '0' ++ text

/-- `bytesToHex`, of bytes as of a list. -/
def bytesToHex : Value → List Char
  | .bytes bytes => toHexChars bytes
  | .list items => ((textsOf items).map (padStart 2)).flatten

inductive Number where
  | finite (n : ℕ)
  | infinity
deriving DecidableEq

/-- From halfway to `2 ^ 1024` on a number is infinite. -/
def toNumber (n : ℕ) : Number := if n < 2 ^ 1024 - 2 ^ 970 then .finite (roundDouble n) else .infinity

/-- What is read; the last three are `none` for an unsigned transaction. -/
structure Decoded where
  chainId : ℕ
  nonce : ℕ
  maxPriorityFeePerGas : ℕ
  maxFeePerGas : ℕ
  gasLimit : ℕ
  «to» : List Char
  value : ℕ
  data : List Char
  yParity : Option Number
  r : Option (List Char)
  s : Option (List Char)

/-- The fields both forms have. -/
def decodeBody (chainId nonce maxPriorityFeePerGas maxFeePerGas gasLimit «to» value data : Value) :
    Except TxError Decoded := do
  let chainId ← rlpIntValue chainId
  let nonce ← rlpIntValue nonce
  let maxPriorityFeePerGas ← rlpIntValue maxPriorityFeePerGas
  let maxFeePerGas ← rlpIntValue maxFeePerGas
  let gasLimit ← rlpIntValue gasLimit
  let value ← rlpIntValue value
  .ok {
    chainId := chainId
    nonce := nonce
    maxPriorityFeePerGas := maxPriorityFeePerGas
    maxFeePerGas := maxFeePerGas
    gasLimit := gasLimit
    «to» := bytesToHex «to»
    value := value
    data := bytesToHex data
    yParity := none
    r := none
    s := none }

/-- The access list is not looked at. -/
def decodeFields : List Value → Except TxError Decoded
  | [chainId, nonce, priority, maxFee, gas, «to», value, data, _] =>
    decodeBody chainId nonce priority maxFee gas «to» value data
  | [chainId, nonce, priority, maxFee, gas, «to», value, data, _, yParity, r, s] => do
    let body ← decodeBody chainId nonce priority maxFee gas «to» value data
    let yParity ← rlpIntValue yParity
    .ok { body with
      yParity := some (toNumber yParity)
      r := some (padStart 64 (bytesToHex r))
      s := some (padStart 64 (bytesToHex s)) }
  | _ => .error (.badTx "eip1559 field count")

def eip1559Decode (raw : Uint8Array) : Except TxError Decoded :=
  match raw with
  | ⟨0x02 :: rest, h⟩ =>
    match rlpDecode ⟨rest, Nat.lt_of_succ_lt h⟩ with
    | .ok (.list fields) => decodeFields fields
    | .ok (.bytes _) => .error (.badTx "eip1559 field count")
    | .error e => .error (.rlp e)
  | _ => .error (.badTx "not an eip1559 transaction")

/-! ## What is written -/

/-- The numbers and bytes of a transaction, without the ways to give them. -/
structure Fields where
  chainId : ℕ
  nonce : ℕ
  maxPriorityFeePerGas : ℕ
  maxFeePerGas : ℕ
  gasLimit : ℕ
  «to» : List UInt8
  data : List UInt8

/-- The transaction is accepted, and these are its numbers and bytes. -/
structure Tx.Has (tx : Tx) (f : Fields) : Prop where
  chainId : tx.chainId = f.chainId
  nonce : tx.nonce = f.nonce
  maxPriorityFeePerGas : tx.maxPriorityFeePerGas = f.maxPriorityFeePerGas
  maxFeePerGas : tx.maxFeePerGas = f.maxFeePerGas
  gasLimit : tx.gasLimit = f.gasLimit
  toBytes : addressBytes tx.«to» = .ok f.«to»
  zeroValue : tx.value.getD 0 = 0
  dataBytes : dataBytes tx.data = .ok f.data

def intValue (n : ℕ) : Value := .bytes (bigBytes n)

/-- The fields of the list, up to the access list. -/
def Fields.values (f : Fields) : List Value :=
  [intValue f.chainId, intValue f.nonce, intValue f.maxPriorityFeePerGas, intValue f.maxFeePerGas, intValue f.gasLimit,
    .bytes f.«to», intValue 0, .bytes f.data, .list []]

def signatureValues (yParity r s : ℕ) : List Value := [intValue yParity, intValue r, intValue s]

theorem rlpInt_natCast (n : ℕ) : rlpInt n = some (intValue n).encode := by
  unfold rlpInt
  rw [if_neg (by omega), intValue, Value.encode]
  rcases Nat.eq_zero_or_pos n with rfl | hpos
  · rw [bigBytes_zero]
    rfl
  · rw [if_neg (by omega), Int.toNat_natCast]

variable {f : Fields} {bytes raw : List UInt8} {sig : Signature} {tx : Tx} {v : Value} {r s y : ℕ}

theorem int_ok_iff {value : ℤ} : int value = .ok bytes ↔ ∃ n : ℕ, value = n ∧ bytes = (intValue n).encode := by
  constructor
  · intro h
    by_cases hneg : value < 0
    · rw [int, rlpInt, if_pos hneg] at h
      cases h
    · obtain ⟨n, rfl⟩ : ∃ n : ℕ, value = n := ⟨value.toNat, by omega⟩
      rw [int, rlpInt_natCast] at h
      exact ⟨n, rfl, (Except.ok.inj h).symm⟩
  · rintro ⟨n, rfl, rfl⟩
    rw [int, rlpInt_natCast]

theorem requireZeroValue_ok_iff {value : Option ℤ} {zero : ℤ} : requireZeroValue value = .ok zero
    ↔ value.getD 0 = 0 ∧ zero = 0 := by
  unfold requireZeroValue
  split_ifs with h
  · exact ⟨nofun, fun hzero => (h hzero.1).elim⟩
  · exact ⟨fun hok => ⟨not_not.1 h, (Except.ok.inj hok).symm⟩, fun hzero => congrArg Except.ok hzero.2.symm⟩

/-- The body is the encoding of the fields the transaction has. -/
theorem eip1559Body_ok_iff {body : List (List UInt8)} :
    eip1559Body tx = .ok body ↔ ∃ f : Fields, tx.Has f ∧ body = encodeItems f.values := by
  unfold eip1559Body
  simp only [bind_iff, int_ok_iff, requireZeroValue_ok_iff]
  constructor
  · rintro ⟨_, ⟨chainId, hchain, rfl⟩, _, ⟨nonce, hnonce, rfl⟩, _, ⟨priority, hpriority, rfl⟩, _, ⟨maxFee, hmax, rfl⟩,
      _, ⟨gas, hgas, rfl⟩, «to», hto, _, ⟨hvalue, rfl⟩, _, ⟨n, hzero, rfl⟩, data, hdata, hbody⟩
    obtain rfl : n = 0 := by omega
    exact ⟨⟨chainId, nonce, priority, maxFee, gas, «to», data⟩,
      ⟨hchain, hnonce, hpriority, hmax, hgas, hto, hvalue, hdata⟩,
      (Except.ok.inj hbody).symm⟩
  · rintro ⟨f, h, rfl⟩
    exact ⟨_, ⟨_, h.chainId, rfl⟩, _, ⟨_, h.nonce, rfl⟩, _, ⟨_, h.maxPriorityFeePerGas, rfl⟩, _,
      ⟨_, h.maxFeePerGas, rfl⟩,
      _, ⟨_, h.gasLimit, rfl⟩, _, h.toBytes, _, ⟨h.zeroValue, rfl⟩, _, ⟨0, rfl, rfl⟩, _, h.dataBytes, rfl⟩

theorem eip1559Unsigned_ok_iff :
    eip1559Unsigned tx = .ok raw ↔ ∃ f : Fields, tx.Has f ∧ raw = 0x02 :: (Value.list f.values).encode := by
  unfold eip1559Unsigned
  simp only [bind_iff, eip1559Body_ok_iff]
  constructor
  · rintro ⟨_, ⟨f, h, rfl⟩, hraw⟩
    exact ⟨f, h, (Except.ok.inj hraw).symm⟩
  · rintro ⟨f, h, rfl⟩
    exact ⟨_, ⟨f, h, rfl⟩, rfl⟩

theorem encodeItems_append (items more : List Value) :
    encodeItems (items ++ more) = encodeItems items ++ encodeItems more := by
  induction items with
  | nil => rfl
  | cons item rest ih => rw [List.cons_append, encodeItems, encodeItems, ih, List.cons_append]

/-- A signature the writer takes, as the three numbers it writes. -/
structure Signature.Has (sig : Signature) (y r s : ℕ) : Prop where
  yParity : sig.yParity = y
  parity : y = 0 ∨ y = 1
  rSize : sig.r.length = 32
  sSize : sig.s.length = 32
  rValue : bytesToBig sig.r = r
  sValue : bytesToBig sig.s = s

theorem eip1559Serialize_ok_iff :
    eip1559Serialize tx sig = .ok raw ↔ ∃ f : Fields, ∃ yParity r s, tx.Has f ∧ sig.Has yParity r s
      ∧ raw = 0x02 :: (Value.list (f.values ++ signatureValues yParity r s)).encode := by
  unfold eip1559Serialize
  simp only [bind_iff, revertIf_ok_iff, eip1559Body_ok_iff, int_ok_iff]
  constructor
  · rintro ⟨_, hparity, _, hsize, _, ⟨f, h, rfl⟩, _, ⟨yParity, hy, rfl⟩, _, ⟨r, hr, rfl⟩, _, ⟨s, hs, rfl⟩, hraw⟩
    refine ⟨f, yParity, r, s, h, ⟨hy, by omega, by tauto, by tauto, by omega, by omega⟩, ?_⟩
    rw [← Except.ok.inj hraw, Value.encode, encodeItems_append]
    rfl
  · rintro ⟨f, yParity, r, s, h, hsig, rfl⟩
    have hy := hsig.yParity
    have hparity := hsig.parity
    have hr := hsig.rSize
    have hs := hsig.sSize
    refine ⟨(), by omega, (), by omega, _, ⟨f, h, rfl⟩, _, ⟨yParity, hy, rfl⟩, _, ⟨r, by rw [hsig.rValue], rfl⟩, _,
      ⟨s, by rw [hsig.sValue], rfl⟩, ?_⟩
    rw [Value.encode, encodeItems_append]
    rfl

/-! ## What is read -/

theorem eip1559Decode_ok_iff {raw : Uint8Array} {d : Decoded} :
    eip1559Decode raw = .ok d ↔ ∃ fields, raw.1 = 0x02 :: (Value.list fields).encode ∧ decodeFields fields = .ok d := by
  obtain ⟨bytes, hsize⟩ := raw
  unfold eip1559Decode
  split
  · next rest h hraw =>
    obtain rfl : bytes = 0x02 :: rest := congrArg Subtype.val hraw
    constructor
    · intro hok
      split at hok
      · next fields hread =>
        exact ⟨fields, by rw [rlpDecode_ok_iff.1 hread], hok⟩
      · cases hok
      · cases hok
    · rintro ⟨fields, hbytes, hok⟩
      have hread : rlpDecode ⟨rest, Nat.lt_of_succ_lt h⟩ = .ok (.list fields) :=
        rlpDecode_ok_iff.2 (List.cons.inj hbytes).2.symm
      rw [hread]
      exact hok
  · next hother =>
    constructor
    · nofun
    · rintro ⟨fields, hbytes, -⟩
      simp only at hbytes
      subst hbytes
      exact (hother _ hsize rfl).elim

/-- What is read of the fields of an unsigned transaction. -/
def Fields.decoded (f : Fields) : Decoded := {
  chainId := f.chainId
  nonce := f.nonce
  maxPriorityFeePerGas := f.maxPriorityFeePerGas
  maxFeePerGas := f.maxFeePerGas
  gasLimit := f.gasLimit
  «to» := toHexChars f.«to»
  value := 0
  data := toHexChars f.data
  yParity := none
  r := none
  s := none }

/-- The transaction with its signature, the scalars as the hex of their 32 bytes. -/
def Fields.signed (f : Fields) (sig : Signature) : Decoded :=
  { f.decoded with
    yParity := some (.finite sig.yParity.toNat)
    r := some (toHexChars sig.r)
    s := some (toHexChars sig.s) }

@[simp] theorem rlpIntValue_intValue (n : ℕ) : rlpIntValue (intValue n) = .ok n :=
  congrArg Except.ok (ofBigEndian_bigBytes n)

theorem toHexChars_append (bytes more : List UInt8) : toHexChars (bytes ++ more) = toHexChars bytes
    ++ toHexChars more := by
  induction bytes with
  | nil => rfl
  | cons b bytes ih => rw [List.cons_append, toHexChars, toHexChars, ih, List.cons_append, List.cons_append]

theorem toHexChars_zeros (k : ℕ) : toHexChars (List.replicate k 0) = List.replicate (2 * k) '0' := by
  induction k with
  | zero => rfl
  | succ k ih =>
    rw [List.replicate_succ, toHexChars, ih,
      show 2 * (k + 1) = 2 * k + 1 + 1 by omega, List.replicate_succ, List.replicate_succ]
    rfl

theorem padStart_scalar (h : bytes.length = 32) :
    padStart 64 (toHexChars (bigBytes (ofBigEndian bytes))) = toHexChars bytes := by
  have hlt : ofBigEndian bytes < 256 ^ 32 := h ▸ ofBigEndian_lt bytes
  have hlen := length_bigBytes_le hlt
  conv_rhs => rw [← bigEndian_ofBigEndian bytes, h, bigEndian_eq_bigBytes hlt, toHexChars_append, toHexChars_zeros]
  rw [padStart, length_toHexChars, show 64 - 2 * (bigBytes (ofBigEndian bytes)).length
    = 2 * (32 - (bigBytes (ofBigEndian bytes)).length) by omega]

theorem decodeBody_values (f : Fields) :
    decodeBody (intValue f.chainId) (intValue f.nonce) (intValue f.maxPriorityFeePerGas) (intValue f.maxFeePerGas)
      (intValue f.gasLimit) (.bytes f.«to») (intValue 0) (.bytes f.data) = .ok f.decoded := by
  simp only [decodeBody, rlpIntValue_intValue, ok_bind]
  rfl

theorem decodeFields_values (f : Fields) : decodeFields f.values = .ok f.decoded := decodeBody_values f

theorem two_pow_add_le {a b c : ℕ} (hab : a ≤ b) (hbc : b < c) : 2 ^ a + 2 ^ b ≤ 2 ^ c := by
  calc 2 ^ a + 2 ^ b ≤ 2 ^ b + 2 ^ b := Nat.add_le_add_right (Nat.pow_le_pow_right Nat.two_pos hab) _
    _ = 2 ^ (b + 1) := by rw [← Nat.two_mul, ← Nat.pow_succ']
    _ ≤ 2 ^ c := Nat.pow_le_pow_right Nat.two_pos hbc

theorem toNumber_of_lt {n : ℕ} (h : n < 2 ^ 53) : toNumber n = .finite n := by
  have hpow : 2 ^ 53 + 2 ^ 970 ≤ 2 ^ 1024 := two_pow_add_le (by decide) (by decide)
  rw [toNumber, if_pos (Nat.lt_of_lt_of_le h (Nat.le_sub_of_add_le hpow)), roundDouble_of_lt h]

theorem decodeFields_signed (f : Fields) (h : sig.Has y r s) :
    decodeFields (f.values ++ signatureValues y r s) = .ok (f.signed sig) := by
  have hy : toNumber y = .finite sig.yParity.toNat := by
    have hparity := h.parity
    rw [h.yParity, Int.toNat_natCast]
    exact toNumber_of_lt (by omega)
  have hr : padStart 64 (bytesToHex (intValue r)) = toHexChars sig.r := h.rValue ▸ padStart_scalar h.rSize
  have hs : padStart 64 (bytesToHex (intValue s)) = toHexChars sig.s := h.sValue ▸ padStart_scalar h.sSize
  have hbody := decodeBody_values f
  show (do
    let body ← decodeBody (intValue f.chainId) (intValue f.nonce) (intValue f.maxPriorityFeePerGas)
      (intValue f.maxFeePerGas)
      (intValue f.gasLimit) (.bytes f.«to») (intValue 0) (.bytes f.data)
    let yParity ← rlpIntValue (intValue y)
    Except.ok { body with
      yParity := some (toNumber yParity)
      r := some (padStart 64 (bytesToHex (intValue r)))
      s := some (padStart 64 (bytesToHex (intValue s))) }) = Except.ok (f.signed sig)
  rw [hbody, rlpIntValue_intValue, ok_bind, ok_bind, hy, hr, hs]
  rfl

/-- **ROUND TRIP**: what is written is read back, with the signature or without. -/
theorem decode_unsigned {raw : Uint8Array} (h : eip1559Unsigned tx = .ok raw.1) :
    ∃ f : Fields, tx.Has f ∧ eip1559Decode raw = .ok f.decoded := by
  obtain ⟨f, hhas, hraw⟩ := eip1559Unsigned_ok_iff.1 h
  exact ⟨f, hhas, eip1559Decode_ok_iff.2 ⟨f.values, hraw, decodeFields_values f⟩⟩

theorem decode_serialized {raw : Uint8Array} (h : eip1559Serialize tx sig = .ok raw.1) :
    ∃ f : Fields, tx.Has f ∧ eip1559Decode raw = .ok (f.signed sig) := by
  obtain ⟨f, y, r, s, hhas, hsig, hraw⟩ := eip1559Serialize_ok_iff.1 h
  exact ⟨f, hhas, eip1559Decode_ok_iff.2 ⟨_, hraw, decodeFields_signed f hsig⟩⟩

/-! ## Canonical fields -/

/-- A string without leading zeros. -/
def IntegerField : Value → Prop
  | .bytes bytes => NoLeadingZero bytes
  | .list _ => False

/-- An integer of at most 32 bytes. -/
def ScalarField : Value → Prop
  | .bytes bytes => NoLeadingZero bytes ∧ bytes.length ≤ 32
  | .list _ => False

def AddressField : Value → Prop
  | .bytes bytes => bytes.length = 20
  | .list _ => False

def StringField : Value → Prop
  | .bytes _ => True
  | .list _ => False

/-- The form of the fields both kinds of transaction have. -/
structure CanonicalBody (chainId nonce maxPriorityFeePerGas maxFeePerGas gasLimit «to» value data
    accessList : Value) : Prop where
  chainId : IntegerField chainId
  nonce : IntegerField nonce
  maxPriorityFeePerGas : IntegerField maxPriorityFeePerGas
  maxFeePerGas : IntegerField maxFeePerGas
  gasLimit : IntegerField gasLimit
  toAddress : AddressField «to»
  zeroValue : value = .bytes []
  dataString : StringField data
  noAccess : accessList = .list []

/-- The fields of a list that is written for some transaction. -/
def CanonicalFields : List Value → Prop
  | [chainId, nonce, priority, maxFee, gas, «to», value, data, accessList] =>
    CanonicalBody chainId nonce priority maxFee gas «to» value data accessList
  | [chainId, nonce, priority, maxFee, gas, «to», value, data, accessList, yParity, r, s] =>
    CanonicalBody chainId nonce priority maxFee gas «to» value data accessList
      ∧ (yParity = .bytes [] ∨ yParity = .bytes [1]) ∧ ScalarField r ∧ ScalarField s
  | _ => False

theorem integerField_iff : IntegerField v ↔ ∃ n, v = intValue n := by
  constructor
  · intro h
    cases v with
    | bytes bytes => exact ⟨ofBigEndian bytes, congrArg Value.bytes (bigBytes_ofBigEndian h).symm⟩
    | list items => exact h.elim
  · rintro ⟨n, rfl⟩
    exact noLeadingZero_bigBytes n

theorem scalarField_iff : ScalarField v ↔ ∃ n < 256 ^ 32, v = intValue n := by
  constructor
  · intro h
    cases v with
    | bytes bytes =>
      refine ⟨ofBigEndian bytes, ?_, congrArg Value.bytes (bigBytes_ofBigEndian h.1).symm⟩
      exact Nat.lt_of_lt_of_le (ofBigEndian_lt bytes) (Nat.pow_le_pow_right (by decide) h.2)
    | list items => exact h.elim
  · rintro ⟨n, hn, rfl⟩
    exact ⟨noLeadingZero_bigBytes n, length_bigBytes_le hn⟩

theorem intValue_one : intValue 1 = .bytes [1] := by
  rw [intValue, bigBytes_pos (by decide), show 1 / 256 = 0 from rfl, bigBytes_zero]
  rfl

theorem intValue_zero : intValue 0 = .bytes [] := by
  rw [intValue, bigBytes_zero]

theorem canonicalBody_values (h : f.«to».length = 20) :
    CanonicalBody (intValue f.chainId) (intValue f.nonce) (intValue f.maxPriorityFeePerGas) (intValue f.maxFeePerGas)
      (intValue f.gasLimit) (.bytes f.«to») (intValue 0) (.bytes f.data) (.list []) where
  chainId := integerField_iff.2 ⟨_, rfl⟩
  nonce := integerField_iff.2 ⟨_, rfl⟩
  maxPriorityFeePerGas := integerField_iff.2 ⟨_, rfl⟩
  maxFeePerGas := integerField_iff.2 ⟨_, rfl⟩
  gasLimit := integerField_iff.2 ⟨_, rfl⟩
  toAddress := h
  zeroValue := intValue_zero
  dataString := trivial
  noAccess := rfl

/-- Canonical fields are those of some numbers and bytes. -/
theorem CanonicalBody.fields {chainId nonce priority maxFee gas «to» value data accessList : Value}
    (h : CanonicalBody chainId nonce priority maxFee gas «to» value data accessList) :
    ∃ f : Fields, f.«to».length = 20 ∧ [chainId, nonce, priority, maxFee, gas, «to», value, data,
      accessList] = f.values := by
  obtain ⟨n₁, rfl⟩ := integerField_iff.1 h.chainId
  obtain ⟨n₂, rfl⟩ := integerField_iff.1 h.nonce
  obtain ⟨n₃, rfl⟩ := integerField_iff.1 h.maxPriorityFeePerGas
  obtain ⟨n₄, rfl⟩ := integerField_iff.1 h.maxFeePerGas
  obtain ⟨n₅, rfl⟩ := integerField_iff.1 h.gasLimit
  have hto := h.toAddress
  have hdata := h.dataString
  obtain rfl := h.zeroValue
  obtain rfl := h.noAccess
  cases «to» with
  | list items => exact hto.elim
  | bytes address =>
    cases data with
    | list items => exact hdata.elim
    | bytes data =>
      refine ⟨⟨n₁, n₂, n₃, n₄, n₅, address, data⟩, hto, ?_⟩
      rw [Fields.values, intValue_zero]

theorem addressBytes_length {«to» : Input} (h : addressBytes «to» = .ok bytes) : bytes.length = 20 := by
  unfold addressBytes at h
  obtain ⟨read, -, hread⟩ := bind_iff.1 h
  split_ifs at hread with hlen
  cases hread
  exact not_not.1 hlen

theorem exists_tx (h : f.«to».length = 20) : ∃ tx : Tx, tx.Has f := by
  refine ⟨⟨f.chainId, f.nonce, f.maxPriorityFeePerGas, f.maxFeePerGas, f.gasLimit, .bytes f.«to»,
    none, some (.bytes f.data)⟩, ?_⟩
  exact ⟨rfl, rfl, rfl, rfl, rfl, by rw [addressBytes, inputBytes, ok_bind, if_neg (not_not.2 h)], rfl, rfl⟩

theorem exists_signature (hy : y = 0 ∨ y = 1) (hr : r < 256 ^ 32) (hs : s < 256 ^ 32) :
    ∃ sig : Signature, sig.Has y r s :=
  ⟨⟨y, bigEndian 32 r, bigEndian 32 s⟩, rfl, hy, length_bigEndian 32 r, length_bigEndian 32 s,
    ofBigEndian_bigEndian hr, ofBigEndian_bigEndian hs⟩

theorem Signature.Has.scalars (h : sig.Has y r s) : r < 256 ^ 32 ∧ s < 256 ^ 32 := by
  have hr := ofBigEndian_lt sig.r
  have hs := ofBigEndian_lt sig.s
  rw [h.rSize] at hr
  rw [h.sSize] at hs
  exact ⟨h.rValue ▸ hr, h.sValue ▸ hs⟩

/-- The output of one of the two writers. -/
def Written (raw : List UInt8) : Prop :=
  (∃ tx, eip1559Unsigned tx = .ok raw) ∨ ∃ tx sig, eip1559Serialize tx sig = .ok raw

/-- The list behind the type byte has the fields of a transaction. -/
def Canonical (raw : List UInt8) : Prop :=
  ∃ fields, raw = 0x02 :: (Value.list fields).encode ∧ CanonicalFields fields

theorem Written.canonical (h : Written raw) : Canonical raw := by
  rcases h with ⟨tx, h⟩ | ⟨tx, sig, h⟩
  · obtain ⟨f, hhas, hraw⟩ := eip1559Unsigned_ok_iff.1 h
    exact ⟨f.values, hraw, canonicalBody_values (addressBytes_length hhas.toBytes)⟩
  · obtain ⟨f, y, r, s, hhas, hsig, hraw⟩ := eip1559Serialize_ok_iff.1 h
    obtain ⟨hr, hs⟩ := hsig.scalars
    refine ⟨f.values ++ signatureValues y r s, hraw, canonicalBody_values (addressBytes_length hhas.toBytes), ?_,
      scalarField_iff.2 ⟨r, hr, rfl⟩, scalarField_iff.2 ⟨s, hs, rfl⟩⟩
    rw [← intValue_zero, ← intValue_one]
    rcases hsig.parity with rfl | rfl
    · exact Or.inl rfl
    · exact Or.inr rfl

theorem Canonical.written (h : Canonical raw) : Written raw := by
  obtain ⟨fields, hraw, h⟩ := h
  unfold CanonicalFields at h
  split at h
  · obtain ⟨f, hto, hfields⟩ := h.fields
    obtain ⟨tx, hhas⟩ := exists_tx hto
    exact Or.inl ⟨tx, eip1559Unsigned_ok_iff.2 ⟨f, hhas, by rw [hraw, hfields]⟩⟩
  · next chainId nonce priority maxFee gas «to» value data accessList yParity r s =>
    obtain ⟨hbody, hparity, hr, hs⟩ := h
    obtain ⟨f, hto, hfields⟩ := hbody.fields
    obtain ⟨r, hrlt, rfl⟩ := scalarField_iff.1 hr
    obtain ⟨s, hslt, rfl⟩ := scalarField_iff.1 hs
    obtain ⟨y, hy, rfl⟩ : ∃ y, (y = 0 ∨ y = 1) ∧ yParity = intValue y := by
      rcases hparity with rfl | rfl
      · exact ⟨0, Or.inl rfl, intValue_zero.symm⟩
      · exact ⟨1, Or.inr rfl, intValue_one.symm⟩
    obtain ⟨tx, hhas⟩ := exists_tx hto
    obtain ⟨sig, hsig⟩ := exists_signature hy hrlt hslt
    refine Or.inr ⟨tx, sig, eip1559Serialize_ok_iff.2 ⟨f, y, r, s, hhas, hsig, ?_⟩⟩
    rw [hraw, ← hfields]
    rfl
  · exact h.elim

theorem written_iff_canonical : Written raw ↔ Canonical raw := ⟨Written.canonical, Canonical.written⟩

/-- **ENCODING**: what is written is read back as it was; what is read was written if and only if its fields are
    canonical. -/
theorem canonical_both_ways (raw : Uint8Array) : (∀ tx sig, eip1559Serialize tx sig = .ok raw.1 →
      ∃ f : Fields, tx.Has f ∧ eip1559Decode raw = .ok (f.signed sig))
    ∧ (∀ tx, eip1559Unsigned tx = .ok raw.1 → ∃ f : Fields, tx.Has f ∧ eip1559Decode raw = .ok f.decoded)
    ∧ ∀ d, eip1559Decode raw = .ok d → (Written raw.1 ↔ Canonical raw.1) :=
  ⟨fun _ _ h => decode_serialized h, fun _ h => decode_unsigned h, fun _ _ => written_iff_canonical⟩

/-- A list with a zero byte for the chain id. -/
def paddedFields : List Value :=
  [.bytes [0], .bytes [], .bytes [], .bytes [], .bytes [], .bytes (List.replicate 20 0), .bytes [], .bytes [], .list []]

/-- The list without that byte. -/
def plainFields : List Value :=
  [.bytes [], .bytes [], .bytes [], .bytes [], .bytes [], .bytes (List.replicate 20 0), .bytes [], .bytes [], .list []]

def paddedRaw : Uint8Array := ⟨0x02 :: (Value.list paddedFields).encode, by decide⟩

def plainRaw : Uint8Array := ⟨0x02 :: (Value.list plainFields).encode, by decide⟩

def zeroFields : Fields := ⟨0, 0, 0, 0, 0, List.replicate 20 0, []⟩

def zeroTx : Tx := ⟨0, 0, 0, 0, 0, .bytes (List.replicate 20 0), none, none⟩

theorem zeroTx_has : zeroTx.Has zeroFields := ⟨rfl, rfl, rfl, rfl, rfl, rfl, rfl, rfl⟩

theorem zeroFields_values : zeroFields.values = plainFields := by
  rw [Fields.values, zeroFields, intValue_zero]
  rfl

theorem encode_injective {a b : Value} (hsize : a.encode.length < 2 ^ 53) (h : a.encode = b.encode) : a = b := by
  have ha : rlpDecode ⟨a.encode, hsize⟩ = .ok a := rlpDecode_ok_iff.2 rfl
  have hb : rlpDecode ⟨a.encode, hsize⟩ = .ok b := rlpDecode_ok_iff.2 h.symm
  exact Except.ok.inj (ha.symm.trans hb)

theorem paddedRaw_not_canonical : ¬ Canonical paddedRaw.1 := by
  rintro ⟨fields, hraw, h⟩
  have hsame : Value.list paddedFields = .list fields := encode_injective (by decide) (List.cons.inj hraw).2
  obtain rfl : paddedFields = fields := Value.list.inj hsame
  exact h.chainId rfl

theorem padded_integer_decodes : eip1559Unsigned zeroTx = .ok plainRaw.1 ∧ paddedRaw ≠ plainRaw
    ∧ eip1559Decode plainRaw = .ok zeroFields.decoded ∧ eip1559Decode paddedRaw = .ok zeroFields.decoded
    ∧ ¬ Written paddedRaw.1 := by
  have hplain : decodeFields plainFields = .ok zeroFields.decoded := zeroFields_values ▸ decodeFields_values zeroFields
  refine ⟨eip1559Unsigned_ok_iff.2 ⟨zeroFields, zeroTx_has, by rw [zeroFields_values]; rfl⟩, by decide,
    eip1559Decode_ok_iff.2 ⟨plainFields, rfl, hplain⟩, eip1559Decode_ok_iff.2 ⟨paddedFields, rfl, rfl⟩, ?_⟩
  exact fun h => paddedRaw_not_canonical h.canonical

/-- A call on Base Sepolia, and a signature whose `r` starts with a zero byte. -/
def sampleTx : Tx where
  chainId := 84532
  nonce := 7
  maxPriorityFeePerGas := 1000000
  maxFeePerGas := 2000000000
  gasLimit := 120000
  «to» := .text "0xF2F2F2F2C402c402c402c402c402c402c402c402".toList
  value := some 0
  data := some (.text "0xa9059cbb01".toList)

def sampleSignature : Signature := ⟨1, 0 :: List.replicate 31 0x5a, List.replicate 32 0x3c⟩

/-- The fields of the call, encoded. -/
def sampleBody : List UInt8 :=
  Solidity.bigEndian 47 0x83014a3407830f424084773594008301d4c094f2f2f2f2c402c402c402c402c402c402c402c4028085a9059cbb01c0

def unsignedRaw : Uint8Array := ⟨0x02 :: 0xef :: sampleBody, by decide⟩

def signedRaw : Uint8Array :=
  ⟨0x02 :: 0xf8 :: 0x71 :: (sampleBody ++ 0x01 :: 0x9f :: List.replicate 31 0x5a
    ++ 0xa0 :: List.replicate 32 0x3c), by decide⟩

theorem serialize_sampleTx : eip1559Serialize sampleTx sampleSignature = .ok signedRaw.1 := by decide +kernel

theorem unsigned_sampleTx : eip1559Unsigned sampleTx = .ok unsignedRaw.1 := by decide +kernel

/-- The call is read back unsigned and signed, its bytes are canonical, and the padded ones were not written. -/
theorem canonical_both_ways_sample :
    (∃ f : Fields, sampleTx.Has f ∧ eip1559Decode signedRaw = .ok (f.signed sampleSignature)) ∧ Canonical signedRaw.1
    ∧ (∃ f : Fields, sampleTx.Has f ∧ eip1559Decode unsignedRaw = .ok f.decoded) ∧ Canonical unsignedRaw.1
    ∧ ¬ Written paddedRaw.1 := by
  obtain ⟨hsigned, -, hread⟩ := canonical_both_ways signedRaw
  obtain ⟨f, hhas, hdecode⟩ := hsigned _ _ serialize_sampleTx
  obtain ⟨-, hunsigned, hreadUnsigned⟩ := canonical_both_ways unsignedRaw
  obtain ⟨g, hhas', hdecode'⟩ := hunsigned _ unsigned_sampleTx
  have hdecoded : eip1559Decode paddedRaw = .ok zeroFields.decoded := eip1559Decode_ok_iff.2 ⟨paddedFields, rfl, rfl⟩
  have hpadded := ((canonical_both_ways paddedRaw).2.2 _ hdecoded).mp
  exact ⟨⟨f, hhas, hdecode⟩, (hread _ hdecode).mp (.inr ⟨_, _, serialize_sampleTx⟩), ⟨g, hhas', hdecode'⟩,
    (hreadUnsigned _ hdecode').mp (.inl ⟨_, unsigned_sampleTx⟩), fun h => paddedRaw_not_canonical (hpadded h)⟩

end Eip1559
