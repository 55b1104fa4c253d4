import Chit402.LineCodecProofs

/-! # The commitments of a line and the keys of the state tree

    What the line module hashes: the payment and content commitments, the
    signature block, the line commitment, the message of the signature, slot
    keys, and the leaves, nodes and empty leaf of the state tree. -/

namespace LineHash

open ExceptFlow FixedRecord HexDigest JsValue LineCodec LineField Solidity

/-- The bytes of a domain string. -/
def ascii (text : String) : List UInt8 := text.toList.map fun c => UInt8.ofNat c.toNat

def DOMAIN_PAY : String := "pay"
def DOMAIN_CNT : String := "cnt"
def DOMAIN_LINE : String := "cs2"
def DOMAIN_SIG : String := "cs2-sig"
def DOMAIN_STATE : String := "chit402-state-v1"
def DOMAIN_EMPTY : String := "empty"

def STATE_LEAF_PREFIX : UInt8 := 0x00
def STATE_NODE_PREFIX : UInt8 := 0x01
def STATE_EMPTY_PREFIX : UInt8 := 0x02

def KIND_PAYTO : ℕ := 0x01
def KIND_WALLET : ℕ := 0x02
def KIND_BOOK : ℕ := 0x03
def KIND_EPOCH : ℕ := 0x04
def KIND_KEY : ℕ := 0x05

def ID_LENGTH_BY_KIND : List (ℕ × ℕ) :=
  [(KIND_PAYTO, 20), (KIND_WALLET, 20), (KIND_BOOK, 32), (KIND_EPOCH, 0), (KIND_KEY, 32)]

def MAX_EMPTY_DEPTH : ℤ := 64

/-! ## What is hashed for a line -/

def paymentHalf (line : List UInt8) : List UInt8 := slice line LAYOUT.payment PAYMENT_BYTES

def contentHalf (line : List UInt8) : List UInt8 := slice line LAYOUT.content CONTENT_BYTES

def sigmaBlock (line : List UInt8) : List UInt8 := slice line LAYOUT.sigma SIGMA_BYTES

def readBe (bytes : List UInt8) (offset width : ℕ) : ℕ := ofBigEndian (slice bytes offset width)

def paymentIdBytes (chainId : ℕ) (blockHash : List UInt8) (txIndex localLogIndex : ℕ) : List UInt8 :=
  bigEndian 8 chainId ++ blockHash ++ bigEndian 4 txIndex ++ bigEndian 2 localLogIndex

def idOf (line : List UInt8) : List UInt8 :=
  paymentIdBytes (readBe (paymentHalf line) 0 8) (slice (paymentHalf line) 8 32) (readBe (paymentHalf line) 56 4)
    (readBe (paymentHalf line) 60 2)

def pBytes (line : List UInt8) : List UInt8 :=
  ascii DOMAIN_PAY ++ (paymentHalf line).drop (PAYMENT_BYTES - SALT_BYTES) ++ paymentHalf line

def kBytes (line : List UInt8) : List UInt8 :=
  ascii DOMAIN_CNT ++ (contentHalf line).drop (CONTENT_BYTES - SALT_BYTES)
    ++ (contentHalf line).take (CONTENT_BYTES - SALT_BYTES)

def sigBytes (id k alg : List UInt8) : List UInt8 := ascii DOMAIN_SIG ++ id ++ k ++ alg

section Hashing

variable (sha256 : List UInt8 → Digest)

def cBytes (line : List UInt8) : List UInt8 :=
  ascii DOMAIN_LINE ++ line.take HEADER_BYTES ++ (sha256 (pBytes line)).bytes ++ (sha256 (kBytes line)).bytes
    ++ (sha256 (sigmaBlock line)).bytes

/-- The message of a line's signature, before its hash. -/
def lineSigBytes (line : List UInt8) : List UInt8 :=
  sigBytes (idOf line) (sha256 (kBytes line)).bytes ((sigmaBlock line).take 1)

structure Commitments where
  P : Digest
  K : Digest
  C : Digest
  sigmaDigest : Digest
deriving DecidableEq

def commitmentBytes (line : List UInt8) : Commitments where
  P := sha256 (pBytes line)
  K := sha256 (kBytes line)
  C := sha256 (cBytes sha256 line)
  sigmaDigest := sha256 (lineSigBytes sha256 line)

/-- The line a caller means: the bytes themselves when they decode, or the encoding of the parts. -/
def lineOf (input : Js) : Except Reason (List UInt8) :=
  match input with
  | .bytes line => do
    let _ ← decodeLine (.bytes line)
    .ok line
  | input => encodeLine input

def commitments (input : Js) : Except Reason Commitments := do
  let line ← lineOf input
  requireAlg (algByte line)
  .ok (commitmentBytes sha256 line)

def canonicalPaymentId (input : Js) : Except Reason (List UInt8) := do
  let input ← objectOf input
  let blockHash ← readBlockHash (get input "blockHash")
  let chainId ← readUint (get input "chainId") 64
  let txIndex ← readUint (get input "txIndex") 32
  let localLogIndex ← readUint (get input "localLogIndex") 16
  .ok (paymentIdBytes chainId blockHash txIndex localLogIndex)

def sigmaDigestBytes (payment k alg : Js) : Except Reason (List UInt8) := do
  let id ← canonicalPaymentId payment
  let key ← readFixed k 32
  let algByte ← readUint alg 8
  requireAlg algByte
  .ok (sigBytes id key (bigEndian 1 algByte))

def sigmaDigest (payment k alg : Js) : Except Reason Digest := (sigmaDigestBytes payment k alg).map sha256

/-! ## The state tree -/

/-- A slot: its kind, chain and id. -/
@[ext] structure SlotParts where
  kind : ℕ
  chainId : ℕ
  id : List UInt8
deriving DecidableEq

def SlotParts.bytes (slot : SlotParts) : List UInt8 :=
  ascii DOMAIN_STATE ++ [UInt8.ofNat slot.kind] ++ bigEndian 8 slot.chainId ++ slot.id

/-- The kind byte and the width of its ids. -/
def readKind (value : Js) : Except Reason (ℕ × ℕ) :=
  match value with
  | .number (.int z) =>
    match ID_LENGTH_BY_KIND.find? (fun row => (row.1 : ℤ) = z) with
    | some row => .ok row
    | none => .error .badKind
  | _ => .error .badKind

def readEpochId (value : Js) : Except Reason (List UInt8) :=
  match value with
  | .undefined | .null | .string [] | .bytes [] => .ok []
  | .bytes _ => .error .badIdLength
  | .string s =>
    if (chars s).length % 2 ≠ 0 ∨ ¬ ∀ c ∈ chars s, c ∈ hexAlphabet then .error .badHex else .error .badIdLength
  | _ => .error .badType

def renameLength (e : Reason) : Reason := if e = .badLength then .badIdLength else e

def readId (value : Js) (want : ℕ) : Except Reason (List UInt8) :=
  (if want = 0 then readEpochId value else readFixed value want).mapError renameLength

def slotParts (input : Js) : Except Reason SlotParts := do
  let input ← objectOf input
  let kind ← readKind (get input "kind")
  let chainId ← readUint (get input "chainId") 64
  let id ← readId (get input "id") kind.2
  .ok ⟨kind.1, chainId, id⟩

def slotKey (input : Js) : Except Reason Digest := do
  let slot ← slotParts input
  .ok (sha256 slot.bytes)

/-- The key module's own chain reader. -/
def keyChain (chainId : Js) : Except Reason ℕ :=
  match chainId with
  | .bigint z => if z < 0 ∨ 2 ^ 64 ≤ z then .error .badUint else .ok z.toNat
  | _ => .error .badUint

def keySlotParts (chainId keyHashBytes : Js) : Except Reason SlotParts :=
  match keyHashBytes with
  | .bytes b =>
    if b.length ≠ 32 then .error .badLength
    else do
      let chain ← keyChain chainId
      .ok ⟨KIND_KEY, chain, b⟩
  | _ => .error .badLength

def keySlotKey (chainId keyHashBytes : Js) : Except Reason Digest := do
  let slot ← keySlotParts chainId keyHashBytes
  .ok (sha256 slot.bytes)

/-- Bytes, or lowercase hex of any length. -/
def readBytes (value : Js) : Except Reason (List UInt8) :=
  match value with
  | .bytes b => .ok b
  | .string s =>
    if (chars s).length % 2 ≠ 0 ∨ ¬ ∀ c ∈ chars s, c ∈ hexAlphabet then .error .badHex
    else if s = [] then .ok []
    else readFixed value ((chars s).length / 2)
  | _ => .error .badType

def stateLeafBytes (key value : Js) : Except Reason (List UInt8) := do
  let keyBytes ← readFixed key 32
  let body ← readBytes value
  .ok ([STATE_LEAF_PREFIX] ++ ascii DOMAIN_STATE ++ keyBytes ++ (sha256 body).bytes)

def stateLeaf (key value : Js) : Except Reason Digest := (stateLeafBytes sha256 key value).map sha256

def nodeBytes (left right : List UInt8) : List UInt8 := [STATE_NODE_PREFIX] ++ left ++ right

def stateNodeBytes (left right : Js) : Except Reason (List UInt8) := do
  let l ← readFixed left 32
  let r ← readFixed right 32
  .ok (nodeBytes l r)

def stateNode (left right : Js) : Except Reason Digest := (stateNodeBytes left right).map sha256

def emptyLeafBytes : List UInt8 := [STATE_EMPTY_PREFIX] ++ ascii DOMAIN_EMPTY

/-- The empty subtree of a depth. -/
def emptyAt : ℕ → Digest
  | 0 => sha256 emptyLeafBytes
  | depth + 1 => sha256 (nodeBytes (emptyAt depth).bytes (emptyAt depth).bytes)

def emptyHash (depth : Js) : Except Reason Digest :=
  match depth with
  | .number (.int d) =>
    if ¬ isSafeInteger d then .error .badDepth
    else if d < 0 ∨ MAX_EMPTY_DEPTH < d then .error .badDepth
    else .ok (emptyAt sha256 d.toNat)
  | _ => .error .badDepth

end Hashing

/-! ## Roles -/

/-- What a byte string is hashed for. -/
inductive Role where
  | payment | content | sigmaBlock | line | sigmaDigest | slotKey | stateLeaf | stateNode | emptyLeaf
deriving DecidableEq

def Role.widths : Role → List ℕ
  | .payment => [306]
  | .content => [468]
  | .sigmaBlock => [65]
  | .line => [101]
  | .sigmaDigest => [86]
  | .slotKey => [25, 45, 57]
  | .stateLeaf => [81]
  | .stateNode => [65]
  | .emptyLeaf => [6]

/-- **The strings hashed for a role**, over everything the module accepts. -/
inductive Hashed (sha256 : List UInt8 → Digest) : Role → List UInt8 → Prop where
  | payment {line : List UInt8} (h : Wellformed line) : Hashed sha256 .payment (pBytes line)
  | content {line : List UInt8} (h : Wellformed line) : Hashed sha256 .content (kBytes line)
  | sigmaBlock {line : List UInt8} (h : Wellformed line) : Hashed sha256 .sigmaBlock (sigmaBlock line)
  | line {line : List UInt8} (h : Wellformed line) : Hashed sha256 .line (cBytes sha256 line)
  | lineSigma {line : List UInt8} (h : Wellformed line) : Hashed sha256 .sigmaDigest (lineSigBytes sha256 line)
  | sigmaDigest {payment k alg : Js} {x : List UInt8} (h : sigmaDigestBytes payment k alg = .ok x) :
      Hashed sha256 .sigmaDigest x
  | slotKey {input : Js} {slot : SlotParts} (h : slotParts input = .ok slot) : Hashed sha256 .slotKey slot.bytes
  | keySlotKey {chainId keyHash : Js} {slot : SlotParts} (h : keySlotParts chainId keyHash = .ok slot) :
      Hashed sha256 .slotKey slot.bytes
  | stateLeaf {key value : Js} {x : List UInt8} (h : stateLeafBytes sha256 key value = .ok x) :
      Hashed sha256 .stateLeaf x
  | stateNode {left right : Js} {x : List UInt8} (h : stateNodeBytes left right = .ok x) : Hashed sha256 .stateNode x
  | emptyNode (depth : ℕ) :
      Hashed sha256 .stateNode (nodeBytes (emptyAt sha256 depth).bytes (emptyAt sha256 depth).bytes)
  | emptyLeaf : Hashed sha256 .emptyLeaf emptyLeafBytes

variable {sha256 : List UInt8 → Digest}

variable {value : Js} {id line x : List UInt8} {r r' : Role} {slot : SlotParts}

theorem length_paymentHalf (h : line.length = LINE_BYTES) :
    (paymentHalf line).length = PAYMENT_BYTES := length_slice (by rw [h]; decide)

theorem length_contentHalf (h : line.length = LINE_BYTES) :
    (contentHalf line).length = CONTENT_BYTES := length_slice (by rw [h]; decide)

theorem length_sigmaBlock (h : line.length = LINE_BYTES) :
    (sigmaBlock line).length = SIGMA_BYTES := length_slice (by rw [h]; decide)

theorem length_paymentIdBytes {chainId txIndex localLogIndex : ℕ} {blockHash : List UInt8} (h : blockHash.length = 32) :
    (paymentIdBytes chainId blockHash txIndex localLogIndex).length = 46 := by
  simp only [paymentIdBytes, List.length_append, length_bigEndian, h]

section

variable (h : line.length = LINE_BYTES)
include h

theorem length_idOf : (idOf line).length = 46 := by
  refine length_paymentIdBytes (length_slice ?_)
  rw [length_paymentHalf h]
  decide

theorem length_pBytes : (pBytes line).length = 306 := by
  simp only [pBytes, List.length_append, List.length_drop, length_paymentHalf h]
  rfl

theorem length_kBytes : (kBytes line).length = 468 := by
  simp only [kBytes, List.length_append, List.length_drop, List.length_take, length_contentHalf h]
  rfl

theorem length_header : (line.take HEADER_BYTES).length = HEADER_BYTES := by
  rw [List.length_take, h]
  rfl

theorem length_cBytes : (cBytes sha256 line).length = 101 := by
  simp only [cBytes, List.length_append, length_header h, Digest.size]
  rfl

end

theorem length_sigBytes {k alg : List UInt8} (hid : id.length = 46) (hk : k.length = 32) (halg : alg.length = 1) :
    (sigBytes id k alg).length = 86 := by
  simp only [sigBytes, List.length_append, hid, hk, halg]
  rfl

theorem length_lineSigBytes (h : line.length = LINE_BYTES) : (lineSigBytes sha256 line).length = 86 := by
  refine length_sigBytes (length_idOf h) (Digest.size _) ?_
  rw [List.length_take, length_sigmaBlock h]
  rfl

theorem length_nodeBytes {left right : List UInt8} (hl : left.length = 32) (hr : right.length = 32) :
    (nodeBytes left right).length = 65 := by
  simp only [nodeBytes, List.length_append, hl, hr]
  rfl

theorem canonicalPaymentId_length {payment : Js} (h : canonicalPaymentId payment = .ok id) : id.length = 46 := by
  obtain ⟨input, -, h⟩ := bind_iff.mp h
  obtain ⟨blockHash, hhash, h⟩ := bind_iff.mp h
  obtain ⟨chainId, -, h⟩ := bind_iff.mp h
  obtain ⟨txIndex, -, h⟩ := bind_iff.mp h
  obtain ⟨localLogIndex, -, h⟩ := bind_iff.mp h
  rw [← Except.ok.inj h]
  exact length_paymentIdBytes (readFixed_ok (readBlockHash_ok hhash).1).1

/-! ## Slots -/

theorem readKind_ok {kind : ℕ × ℕ} (h : readKind value = .ok kind) : kind ∈ ID_LENGTH_BY_KIND := by
  unfold readKind at h
  split at h
  · split at h
    · rename_i row hrow
      cases h
      exact List.mem_of_find?_eq_some hrow
    · cases h
  · cases h

theorem readEpochId_ok (h : readEpochId value = .ok id) : id = [] := by
  unfold readEpochId at h
  split at h
  iterate 4 exact (Except.ok.inj h).symm
  · cases h
  · split_ifs at h
  · cases h

theorem readId_ok {want : ℕ} (h : readId value want = .ok id) : id.length = want := by
  rw [readId, mapError_ok_iff] at h
  split_ifs at h with hzero
  · rw [readEpochId_ok h, hzero]
    rfl
  · exact (readFixed_ok h).1

/-- **A slot that is hashed**: a known kind, a chain of 64 bits, an id of the kind's width. -/
structure SlotParts.Valid (slot : SlotParts) : Prop where
  kind : (slot.kind, slot.id.length) ∈ ID_LENGTH_BY_KIND
  chain : slot.chainId < 2 ^ 64

theorem slotParts_valid {input : Js} (h : slotParts input = .ok slot) : slot.Valid := by
  obtain ⟨o, -, h⟩ := bind_iff.mp h
  obtain ⟨kind, hkind, h⟩ := bind_iff.mp h
  obtain ⟨chainId, hchain, h⟩ := bind_iff.mp h
  obtain ⟨id, hid, h⟩ := bind_iff.mp h
  cases h
  have hlt : chainId < 2 ^ (8 * 8) := (readUint_ok hchain).1
  refine ⟨?_, hlt⟩
  rw [readId_ok hid]
  exact readKind_ok hkind

theorem keySlotParts_valid {chainId keyHash : Js} (h : keySlotParts chainId keyHash = .ok slot) : slot.Valid := by
  unfold keySlotParts at h
  split at h
  · rename_i b
    rw [ite_error_ok_iff, not_not] at h
    obtain ⟨hlength, h⟩ := h
    obtain ⟨chain, hchain, h⟩ := bind_iff.mp h
    cases h
    unfold keyChain at hchain
    split at hchain
    · rw [ite_error_ok_iff, not_or] at hchain
      cases hchain.2
      refine ⟨?_, by show Int.toNat _ < _; omega⟩
      show (KIND_KEY, b.length) ∈ ID_LENGTH_BY_KIND
      rw [hlength]
      decide
    · cases hchain
  · cases h

theorem length_slotBytes (slot : SlotParts) : slot.bytes.length = 25 + slot.id.length := by
  simp only [SlotParts.bytes, List.length_append, length_bigEndian]
  rfl

theorem kind_lt : ∀ row ∈ ID_LENGTH_BY_KIND, row.1 < 256 ∧ 25 + row.2 ∈ Role.widths .slotKey := by decide

/-- **SLOT KEYS**: the string hashed for a slot tells its kind, its chain and its id. -/
theorem slotBytes_injective {a b : SlotParts} (ha : a.Valid) (hb : b.Valid) (h : a.bytes = b.bytes) : a = b := by
  rw [SlotParts.bytes, SlotParts.bytes, List.append_assoc, List.append_assoc, List.append_assoc, List.append_assoc,
    List.append_cancel_left_eq, List.singleton_append, List.singleton_append] at h
  obtain ⟨hkind, hrest⟩ := List.cons.inj h
  obtain ⟨hchain, hid⟩ := List.append_inj hrest (by rw [length_bigEndian, length_bigEndian])
  have hk := congrArg UInt8.toNat hkind
  rw [UInt8.toNat_ofNat', UInt8.toNat_ofNat', Nat.mod_eq_of_lt (kind_lt _ ha.kind).1,
    Nat.mod_eq_of_lt (kind_lt _ hb.kind).1] at hk
  exact SlotParts.ext hk (bigEndian_inj ha.chain hb.chain hchain) hid

/-! ## Separation -/

/-- Every string hashed for a role has one of the role's widths. -/
theorem width_of_hashed (h : Hashed sha256 r x) : x.length ∈ r.widths := by
  have hslot : ∀ {slot : SlotParts}, slot.Valid → slot.bytes.length ∈ Role.widths .slotKey := by
    intro slot hvalid
    rw [length_slotBytes]
    exact (kind_lt _ hvalid.kind).2
  have hone : ∀ {n : ℕ} {y : List UInt8}, y.length = n → y.length ∈ [n] := fun hy => List.mem_singleton.mpr hy
  cases h with
  | payment h => exact hone (length_pBytes h.length)
  | content h => exact hone (length_kBytes h.length)
  | sigmaBlock h => exact hone (length_sigmaBlock h.length)
  | line h => exact hone (length_cBytes h.length)
  | lineSigma h => exact hone (length_lineSigBytes h.length)
  | sigmaDigest h =>
    obtain ⟨id, hid, h⟩ := bind_iff.mp h
    obtain ⟨key, hkey, h⟩ := bind_iff.mp h
    obtain ⟨alg, -, h⟩ := bind_iff.mp h
    rw [requireAlg_bind_ok_iff] at h
    rw [← Except.ok.inj h.2]
    exact hone (length_sigBytes (canonicalPaymentId_length hid) (readFixed_ok hkey).1 (length_bigEndian 1 alg))
  | slotKey h => exact hslot (slotParts_valid h)
  | keySlotKey h => exact hslot (keySlotParts_valid h)
  | stateLeaf h =>
    obtain ⟨key, hkey, h⟩ := bind_iff.mp h
    obtain ⟨body, -, h⟩ := bind_iff.mp h
    rw [← Except.ok.inj h]
    refine hone ?_
    simp only [List.length_append, (readFixed_ok hkey).1, Digest.size]
    rfl
  | stateNode h =>
    obtain ⟨l, hl, h⟩ := bind_iff.mp h
    obtain ⟨r, hr, h⟩ := bind_iff.mp h
    rw [← Except.ok.inj h]
    exact hone (length_nodeBytes (readFixed_ok hl).1 (readFixed_ok hr).1)
  | emptyNode depth => exact hone (length_nodeBytes (Digest.size _) (Digest.size _))
  | emptyLeaf => exact hone rfl

theorem widths_meet (hne : r ≠ r') {n : ℕ} (h : n ∈ r.widths) (h' : n ∈ r'.widths) :
    (r = .sigmaBlock ∧ r' = .stateNode) ∨ (r = .stateNode ∧ r' = .sigmaBlock) := by
  cases r <;> cases r' <;> simp [Role.widths] at h h' hne ⊢ <;> omega

/-- **ONE ROLE A STRING**: a string is hashed for two roles only when these are
    the signature block and the node of the state tree. -/
theorem hashed_once (hne : r ≠ r') (h : Hashed sha256 r x) (h' : Hashed sha256 r' x) :
    (r = .sigmaBlock ∧ r' = .stateNode) ∨ (r = .stateNode ∧ r' = .sigmaBlock) :=
  widths_meet hne (width_of_hashed h) (width_of_hashed h')

/-- **THE EXCEPTION**: the signature block of a line is the node over its `r` and its `s`. -/
theorem sigmaBlock_is_node (h : Wellformed line) :
    stateNodeBytes (.bytes (slice line 739 32)) (.bytes (slice line 771 32)) = .ok (sigmaBlock line) := by
  have hr : (slice line 739 32).length = 32 := length_slice (by rw [h.length]; decide)
  have hs : (slice line 771 32).length = 32 := length_slice (by rw [h.length]; decide)
  have halg : slice line 738 1 = [STATE_NODE_PREFIX] := by
    rw [slice_alg h.length]
    have hone : algByte line = 1 := List.mem_singleton.mp ((fields_accepted_iff h.length).1 h.fields).2.2
    exact congrArg (fun b => [b]) (UInt8.toNat.inj (hone : (line.getD LAYOUT.sigma 0).toNat = STATE_NODE_PREFIX.toNat))
  have hblock : sigmaBlock line = slice line 738 1 ++ slice line 739 32 ++ slice line 771 32 := by
    show slice line 738 (1 + 32 + 32) = _
    rw [slice_add, slice_add]
  rw [stateNodeBytes, readFixed_bytes hr, ok_bind, readFixed_bytes hs, ok_bind, hblock, halg]
  rfl

/-! ## Binding -/

def stringsOf (sha256 : List UInt8 → Digest) (line : List UInt8) : List (List UInt8) :=
  [pBytes line, kBytes line, sigmaBlock line, cBytes sha256 line, lineSigBytes sha256 line]

section Binding

variable {a b : List UInt8}

theorem contentHalf_of_kBytes (ha : a.length = LINE_BYTES) (hb : b.length = LINE_BYTES) (h : kBytes a = kBytes b) :
    contentHalf a = contentHalf b := by
  rw [kBytes, kBytes, List.append_assoc, List.append_assoc, List.append_cancel_left_eq] at h
  obtain ⟨hsalt, hbody⟩ := List.append_inj h (by
    rw [List.length_drop, List.length_drop, length_contentHalf ha, length_contentHalf hb])
  rw [← List.take_append_drop (CONTENT_BYTES - SALT_BYTES) (contentHalf a), hbody, hsalt, List.take_append_drop]

theorem paymentHalf_of_pBytes (ha : a.length = LINE_BYTES) (hb : b.length = LINE_BYTES) (h : pBytes a = pBytes b) :
    paymentHalf a = paymentHalf b := by
  rw [pBytes, pBytes, List.append_assoc, List.append_assoc, List.append_cancel_left_eq] at h
  exact (List.append_inj h (by
    rw [List.length_drop, List.length_drop, length_paymentHalf ha, length_paymentHalf hb])).2

theorem line_eq_of_halves (ha : Wellformed a) (hb : Wellformed b) (hpayment : paymentHalf a = paymentHalf b)
    (hcontent : contentHalf a = contentHalf b) (hsigma : sigmaBlock a = sigmaBlock b) : a = b := by
  let halves : Fields ℕ := [(0, PAYMENT_BYTES), (1, CONTENT_BYTES), (2, SIGMA_BYTES)]
  have hheader : a.take HEADER_BYTES = b.take HEADER_BYTES := ha.header.trans hb.header.symm
  refine eq_of_slots halves hheader (ha.pad.trans hb.pad.symm) fun s hs => ?_
  simp only [halves, slots, List.mem_cons, List.not_mem_nil, or_false] at hs
  rcases hs with rfl | rfl | rfl
  · exact hpayment
  · exact hcontent
  · exact hsigma

/-- **THE LINE COMMITMENT BINDS**: equal commitments are of one line. -/
theorem commitment_binds (ha : Wellformed a) (hb : Wellformed b)
    (hcf : NoCollision sha256 (stringsOf sha256 a ++ stringsOf sha256 b))
    (h : (commitmentBytes sha256 a).C = (commitmentBytes sha256 b).C) : a = b := by
  have hc : cBytes sha256 a = cBytes sha256 b := hcf _ (by simp [stringsOf]) _ (by simp [stringsOf]) h
  rw [cBytes, cBytes] at hc
  obtain ⟨hc, hsigma⟩ := List.append_inj' hc (by rw [Digest.size, Digest.size])
  obtain ⟨hc, hk⟩ := List.append_inj' hc (by rw [Digest.size, Digest.size])
  obtain ⟨-, hp⟩ := List.append_inj' hc (by rw [Digest.size, Digest.size])
  have hsigma' := hcf _ (by simp [stringsOf]) _ (by simp [stringsOf]) (Digest.ext hsigma)
  have hk' := hcf _ (by simp [stringsOf]) _ (by simp [stringsOf]) (Digest.ext hk)
  have hp' := hcf _ (by simp [stringsOf]) _ (by simp [stringsOf]) (Digest.ext hp)
  exact line_eq_of_halves ha hb (paymentHalf_of_pBytes ha.length hb.length hp')
    (contentHalf_of_kBytes ha.length hb.length hk') hsigma'

/-- The payment id of a line is four of its fields. -/
theorem idOf_eq (h : line.length = LINE_BYTES) :
    idOf line = slice line 2 8 ++ slice line 10 32 ++ slice line 58 4 ++ slice line 62 2 := by
  have hpiece : ∀ {o n : ℕ}, o + n ≤ PAYMENT_BYTES → slice (paymentHalf line) o n = slice line (2 + o) n :=
    fun hn => slice_slice hn
  have hnumber : ∀ {o n : ℕ}, o + n ≤ PAYMENT_BYTES →
      bigEndian n (readBe (paymentHalf line) o n) = slice line (2 + o) n := by
    intro o n hn
    have hsize : (slice line (2 + o) n).length = n := by
      refine length_slice ?_
      unfold PAYMENT_BYTES at hn
      rw [h]
      unfold LINE_BYTES
      omega
    have hback := bigEndian_ofBigEndian (slice line (2 + o) n)
    rw [hsize] at hback
    rw [readBe, hpiece hn]
    exact hback
  rw [idOf, paymentIdBytes, hnumber (by decide), hpiece (by decide), hnumber (by decide), hnumber (by decide)]

/-- The fields of a payment that its signature is over. -/
def SIGNED_FIELDS : List String := ["chainId", "blockHash", "txIndex", "localLogIndex"]

/-- **THE SIGNATURE MESSAGE BINDS** the payment's position, the content half and the algorithm. -/
theorem sigmaDigest_binds (ha : Wellformed a) (hb : Wellformed b)
    (hcf : NoCollision sha256 (stringsOf sha256 a ++ stringsOf sha256 b))
    (h : (commitmentBytes sha256 a).sigmaDigest = (commitmentBytes sha256 b).sigmaDigest) :
    (∀ name ∈ SIGNED_FIELDS, fieldSlice a LAYOUT.payment PAYMENT_FIELDS name
      = fieldSlice b LAYOUT.payment PAYMENT_FIELDS name)
      ∧ contentHalf a = contentHalf b ∧ algByte a = algByte b := by
  have hs : lineSigBytes sha256 a = lineSigBytes sha256 b := hcf _ (by simp [stringsOf]) _ (by simp [stringsOf]) h
  have htake : ∀ {line : List UInt8}, (sigmaBlock line).take 1 = slice line 738 1 := by
    intro line
    exact List.take_take
  rw [lineSigBytes, lineSigBytes, sigBytes, sigBytes, htake, htake, slice_alg ha.length, slice_alg hb.length] at hs
  obtain ⟨hs, halg⟩ := List.append_inj' hs rfl
  obtain ⟨hs, hk⟩ := List.append_inj' hs (by rw [Digest.size, Digest.size])
  have hid := List.append_cancel_left hs
  rw [idOf_eq ha.length, idOf_eq hb.length] at hid
  have hsize : ∀ {o n : ℕ}, o + n ≤ LINE_BYTES → (slice a o n).length = (slice b o n).length := by
    intro o n hn
    rw [length_slice (by rw [ha.length]; exact hn), length_slice (by rw [hb.length]; exact hn)]
  obtain ⟨hid, hlog⟩ := List.append_inj' hid (hsize (by decide))
  obtain ⟨hid, htx⟩ := List.append_inj' hid (hsize (by decide))
  obtain ⟨hchain, hhash⟩ := List.append_inj' hid (hsize (by decide))
  refine ⟨?_, ?_, congrArg UInt8.toNat (List.cons.inj halg).1⟩
  · intro name hname
    simp only [SIGNED_FIELDS, List.mem_cons, List.not_mem_nil, or_false] at hname
    rcases hname with rfl | rfl | rfl | rfl
    · exact hchain
    · exact hhash
    · exact htx
    · exact hlog
  · exact contentHalf_of_kBytes ha.length hb.length
      (hcf _ (by simp [stringsOf]) _ (by simp [stringsOf]) (Digest.ext hk))

end Binding

/-! ## The claims of the module, together -/

theorem commitments_bytes_ok {c : Commitments} (h : commitments sha256 (.bytes line) = .ok c) :
    Wellformed line ∧ c = commitmentBytes sha256 line := by
  obtain ⟨l, hl, h⟩ := bind_iff.mp h
  obtain ⟨parts, hparts, hl⟩ := bind_iff.mp hl
  cases hl
  rw [requireAlg_bind_ok_iff] at h
  exact ⟨(decodeLine_ok_iff.mp hparts).1, (Except.ok.inj h.2).symm⟩

theorem keySlotParts_eq {c : ℕ} (h : (⟨KIND_KEY, c, id⟩ : SlotParts).Valid) :
    keySlotParts (.bigint c) (.bytes id) = .ok ⟨KIND_KEY, c, id⟩ := by
  have hlength : id.length = 32 := by
    have hkind := h.kind
    simp only [ID_LENGTH_BY_KIND, KIND_KEY, KIND_PAYTO, KIND_WALLET, KIND_BOOK, KIND_EPOCH, List.mem_cons,
      Prod.mk.injEq, List.not_mem_nil, or_false] at hkind
    omega
  have hchain : c < 2 ^ 64 := h.chain
  rw [keySlotParts, if_neg (not_not.mpr hlength), keyChain, if_neg (by omega), ok_bind, Int.toNat_natCast]

variable (sha256) in
/-- **COMMITMENTS BIND AND ROLES STAY APART**: a line commitment is of one line
    and a signature message of one signed content; a slot key is of one slot,
    and that of the key module for the key kind; and a string is hashed for
    one role, except that every signature block is also a node of the state tree. -/
theorem line_hashes : (∀ a b ca cb, commitments sha256 (.bytes a) = .ok ca → commitments sha256 (.bytes b) = .ok cb →
      NoCollision sha256 (stringsOf sha256 a ++ stringsOf sha256 b) → (ca.C = cb.C → a = b)
        ∧ (ca.sigmaDigest = cb.sigmaDigest → (∀ name ∈ SIGNED_FIELDS,
            fieldSlice a LAYOUT.payment PAYMENT_FIELDS name = fieldSlice b LAYOUT.payment PAYMENT_FIELDS name)
          ∧ contentHalf a = contentHalf b ∧ algByte a = algByte b))
    ∧ (∀ x y p q, slotParts x = .ok p → slotParts y = .ok q → NoCollision sha256 [p.bytes, q.bytes] →
        slotKey sha256 x = slotKey sha256 y → p = q) ∧ (∀ x c id, slotParts x = .ok ⟨KIND_KEY, c, id⟩ →
        slotKey sha256 x = keySlotKey sha256 (.bigint c) (.bytes id))
    ∧ (∀ r r' x, r ≠ r' → Hashed sha256 r x → Hashed sha256 r' x →
        (r = .sigmaBlock ∧ r' = .stateNode) ∨ (r = .stateNode ∧ r' = .sigmaBlock)) ∧ ∀ line, Wellformed line →
        stateNodeBytes (.bytes (slice line 739 32)) (.bytes (slice line 771 32)) = .ok (sigmaBlock line) := by
  refine ⟨?_, ?_, ?_, fun r r' x hne h h' => hashed_once hne h h', fun line h => sigmaBlock_is_node h⟩
  · intro a b ca cb hca hcb hcf
    obtain ⟨ha, rfl⟩ := commitments_bytes_ok hca
    obtain ⟨hb, rfl⟩ := commitments_bytes_ok hcb
    exact ⟨commitment_binds ha hb hcf, sigmaDigest_binds ha hb hcf⟩
  · intro x y p q hp hq hcf h
    rw [slotKey, slotKey, hp, hq, ok_bind, ok_bind, Except.ok.injEq] at h
    exact slotBytes_injective (slotParts_valid hp) (slotParts_valid hq) (hcf _ (by simp) _ (by simp) h)
  · intro x c id hx
    rw [slotKey, keySlotKey, hx, keySlotParts_eq (slotParts_valid hx)]

/-! ## The sample line's block in the tree -/

/-- A hash that no result below depends on. -/
def zeroHash : List UInt8 → Digest := fun _ => ⟨List.replicate 32 0, length_zeros⟩

/-- **A SIGNATURE BLOCK IS A NODE**: the string hashed for the block of the
    sample line is also hashed for a node of the state tree. -/
theorem sample_block_is_node :
    encodeLine sampleParts = .ok sampleLine ∧ Hashed zeroHash .sigmaBlock (sigmaBlock sampleLine)
      ∧ Hashed zeroHash .stateNode (sigmaBlock sampleLine) := by
  have hline : Wellformed sampleLine := (encodeLine_ok_iff.mp encodeLine_sampleParts).wellformed
  exact ⟨encodeLine_sampleParts, .sigmaBlock hline, .stateNode (sigmaBlock_is_node hline)⟩

/-- A key slot as a caller names it. -/
def sampleSlot : Js := .object [("kind", .number (.int 5)), ("chainId", .string (units "8453")),
    ("id", repeated "07" 32)]

theorem line_hashes_sample :
    slotKey zeroHash sampleSlot = keySlotKey zeroHash (.bigint (8453 : ℕ)) (.bytes (List.replicate 32 7))
      ∧ stateNodeBytes (.bytes (slice sampleLine 739 32)) (.bytes (slice sampleLine 771 32))
        = .ok (sigmaBlock sampleLine) := by
  obtain ⟨-, -, hkey, -, hnode⟩ := line_hashes zeroHash
  refine ⟨hkey sampleSlot 8453 (List.replicate 32 7) (by decide +kernel), hnode sampleLine ?_⟩
  exact (encodeLine_ok_iff.mp encodeLine_sampleParts).wellformed

end LineHash
