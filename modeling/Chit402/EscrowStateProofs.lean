import Chit402.EscrowMerkleProofs

/-! # Storage, keys and digests of the escrow

    The types of `EquivocationEscrowV0`, its constants, its storage, and
    every hash it takes.  `keccak256`, `sha256` and the `0x100` precompile are
    fields of the deployed contract, next to its immutables.

    A mapping is a total function with Solidity's zero default.  `uint256`
    sums of token amounts stay far below 2^256 and are natural numbers;
    narrower casts and every checked subtraction are kept. -/

namespace EscrowState

open Solidity

structure TreeHead where
  epoch : UInt32
  treeSize : UInt64
  root : Word
  publishedAt : UInt64
  kid : Word

structure Sig where
  r : Word
  s : Word

structure ReceiptBinding where
  leafHash : Word
  payerCommitment : Word
  amountAtomic : UInt64
  assetId : Word
  kid : Word

structure EvidenceB where
  h1 : TreeHead
  s1 : Sig
  h2 : TreeHead
  s2 : Sig
  index : UInt64
  l1 : Word
  l2 : Word
  p1 : List Word
  p2 : List Word

/-- One quarantine list entry, or one high-water mark. -/
structure HeadRef where
  epoch : UInt32
  treeSize : UInt64
  root : Word

structure Commit where
  committer : Address
  madeAt : Nat
  seq : Nat

structure Incident where
  epoch : UInt32
  openedAt : Nat
  claimsCloseAt : Nat
  freezeUntil : Nat
  settled : Bool
  requested : Nat
  pool : Nat

structure EpochBounty where
  firstRevealAt : Nat
  bestSeq : Nat
  finalized : Bool
  bestPayTo : Address
  paid : Nat

structure BKey where
  lo : Word
  hi : Word
  incidentId : Nat

structure Refund where
  payer : Address
  amount : Nat
  paid : Bool
  incidentId : Nat

/-! ## Constants -/

def chainId : Nat := 84532
def evidenceA : Nat := 1
def evidenceB : Nat := 2
/-- 5 minutes. -/
def minDelay : Nat := 300
/-- 24 hours. -/
def revealWindow : Nat := 86400
/-- 1 hour. -/
def contestWindow : Nat := 3600
def maxOpenCommits : Nat := 8
/-- 14 days. -/
def bondPeriod : Nat := 1209600
/-- 14 days. -/
def noticePeriod : Nat := 1209600
/-- 14 days. -/
def claimWindow : Nat := 1209600
/-- 28 days. -/
def freezeCap : Nat := 2419200
def minBond : Nat := 1000000000
def bounty : Nat := 50000000
def bountyCap : Nat := 100000000
def refundCap : Nat := 5000000

/-! ## Storage -/

structure State where
  bondAccounted : Nat
  activatedAt : Nat
  noticeAt : Nat
  closed : Bool
  freezeUntil : Nat
  frozenUsed : Nat
  listPinned : Bool
  quarantineListHash : Word
  quarantineCount : Nat
  quarantined : Word → Bool
  commitSeq : Nat
  commits : Word → Commit
  commitSlots : Address → Fin maxOpenCommits → Word
  incidentCount : Nat
  incidents : Nat → Incident
  incidentOf : Word → Nat
  openIncidents : Nat
  openRequested : Nat
  bounties : UInt32 → EpochBounty
  bountiesPaid : Nat
  pendingBounties : Nat
  evidenceIncident : Word → Nat
  bKeys : Word → BKey
  refunds : Word → Refund
  credits : Address → Nat

def noCommit : Commit where
  committer := 0
  madeAt := 0
  seq := 0

def noIncident : Incident where
  epoch := 0
  openedAt := 0
  claimsCloseAt := 0
  freezeUntil := 0
  settled := false
  requested := 0
  pool := 0

def noBounty : EpochBounty where
  firstRevealAt := 0
  bestSeq := 0
  finalized := false
  bestPayTo := 0
  paid := 0

def noRefund : Refund where
  payer := 0
  amount := 0
  paid := false
  incidentId := 0

/-- Zeroed storage. -/
def initial : State where
  bondAccounted := 0
  activatedAt := 0
  noticeAt := 0
  closed := false
  freezeUntil := 0
  frozenUsed := 0
  listPinned := false
  quarantineListHash := 0
  quarantineCount := 0
  quarantined := fun _ => false
  commitSeq := 0
  commits := fun _ => noCommit
  commitSlots := fun _ _ => 0
  incidentCount := 0
  incidents := fun _ => noIncident
  incidentOf := fun _ => 0
  openIncidents := 0
  openRequested := 0
  bounties := fun _ => noBounty
  bountiesPaid := 0
  pendingBounties := 0
  evidenceIncident := fun _ => 0
  bKeys := fun _ => { lo := 0, hi := 0, incidentId := 0 }
  refunds := fun _ => noRefund
  credits := fun _ => 0

/-! ## The deployed contract -/

/-- The hash functions and the precompile.  A `staticcall` answers with a success
    flag and the returned bytes. -/
structure Hashes where
  keccak256 : List UInt8 → Word
  sha256 : List UInt8 → Word
  p256Verifier : Word → Word → Word → Word → Word → Bool × List UInt8

structure Contract where
  hashes : Hashes
  chainid : Nat
  self : Address
  owner : Address
  token : Address
  kid : Word
  pubX : Word
  pubY : Word
  logSalt : Word
  treeHeadDomainSeparator : Word
  bindingDomainSeparator : Word

/-- `msg.sender` and `block.timestamp`.  Block times lie in the range of the
    contract's `uint48` commit clock, some nine million years. -/
structure Msg where
  sender : Address
  timestamp : Nat
  inRange : timestamp < 2 ^ 48

variable (hashes : Hashes)

/-- `keccak256` of a string literal. -/
def keccakText (text : String) : Word := hashes.keccak256 text.toUTF8.toList

def domainTypehash : Word :=
  keccakText hashes "EIP712Domain(string name,string version,uint256 chainId,bytes32 salt)"

def treeHeadTypehash : Word :=
  keccakText hashes
    "TreeHead(uint32 epoch,uint64 tree_size,bytes32 root,uint64 published_at,bytes32 kid)"

def bindingTypehash : Word :=
  keccakText hashes ("ReceiptBinding(bytes32 leaf_hash,bytes32 payer_commitment,"
    ++ "uint64 amount_atomic,bytes32 asset_id,bytes32 kid)")

def commitTag : Word := keccakText hashes "chit402.escrow.v0.commit"

def payerTag : Word := keccakText hashes "chit402.payer-commitment.v1"

/-- The receipt payment asset, Base mainnet USDC. -/
def usdcBaseId : Word :=
  keccakText hashes "eip155:8453/erc20:0x833589fcd6edb6e08f4c7c32d4f71b54bda02913"

def domainSeparator (name : String) (logSalt : Word) : Word :=
  hashes.keccak256 (abiEncode [domainTypehash hashes, keccakText hashes name,
    keccakText hashes "1", uintWord chainId, logSalt])

/-! ## The key thumbprint of the constructor -/

def b64Alphabet : List UInt8 :=
  "ABCDEFGHIJKLMNOPQRSTUVWXYZabcdefghijklmnopqrstuvwxyz0123456789-_".toUTF8.toList

/-- 42 groups of six bits, and the last four bits with two zero bits. -/
def b64url32 (v : Word) : List UInt8 :=
  (List.range 42).map (fun i => b64Alphabet.getD (v.toNat / 2 ^ (256 - 6 * (i + 1)) % 64) 0)
    ++ [b64Alphabet.getD (v.toNat % 16 * 4) 0]

def thumbprintP256 (x y : Word) : Word :=
  hashes.sha256 ("\x7b\"crv\":\"P-256\",\"kty\":\"EC\",\"x\":\"".toUTF8.toList ++ b64url32 x
    ++ "\",\"y\":\"".toUTF8.toList ++ b64url32 y ++ "\"\x7d".toUTF8.toList)

/-! ## Digests, keys and views -/

variable (C : Contract)

def treeHeadStructHash (h : TreeHead) : Word :=
  C.hashes.keccak256 (abiEncode [treeHeadTypehash C.hashes, uintWord h.epoch.toNat,
    uintWord h.treeSize.toNat, h.root, uintWord h.publishedAt.toNat, h.kid])

/-- SHA-256(0x1901 || treeHeadDomainSeparator || structHash), the value P-256 signs. -/
def treeHeadDigest (h : TreeHead) : Word :=
  C.hashes.sha256 ([0x19, 0x01] ++ wordBytes C.treeHeadDomainSeparator
    ++ wordBytes (treeHeadStructHash C h))

def bindingDigest (b : ReceiptBinding) : Word :=
  C.hashes.sha256 ([0x19, 0x01] ++ wordBytes C.bindingDomainSeparator
    ++ wordBytes (C.hashes.keccak256 (abiEncode [bindingTypehash C.hashes, b.leafHash,
      b.payerCommitment, uintWord b.amountAtomic.toNat, b.assetId, b.kid])))

/-- Strict: the call succeeds, returns exactly 32 bytes, and the word is 1. -/
def p256 (e r s x y : Word) : Bool :=
  let answer := C.hashes.p256Verifier e r s x y
  answer.1 && (answer.2.length = 32 && answer.2 = wordBytes 1)

def headRefKey (epoch : UInt32) (treeSize : UInt64) (root : Word) : Word :=
  C.hashes.keccak256 (abiEncode [uintWord epoch.toNat, uintWord treeSize.toNat, root])

/-- The conflicting epoch and the issuer key identify the incident. -/
def incidentKey (epoch : UInt32) : Word :=
  C.hashes.keccak256 (abiEncode [uintWord epoch.toNat, C.kid])

def commitHash (submitter payTo : Address) (evidenceType : Nat) (evidenceHash salt : Word) :
    Word :=
  C.hashes.keccak256 (abiEncode [commitTag C.hashes, uintWord C.chainid, addressWord C.self,
    addressWord submitter, addressWord payTo, uintWord evidenceType, evidenceHash, salt])

def headWords (h : TreeHead) : List Word :=
  [uintWord h.epoch.toNat, uintWord h.treeSize.toNat, h.root, uintWord h.publishedAt.toNat, h.kid]

/-- The evidence arguments: 17 static words, two offsets, two arrays. -/
def evidenceWords (h1 : TreeHead) (s1 : Sig) (h2 : TreeHead) (s2 : Sig) (index : Nat)
    (l1 l2 : Word) (p1 p2 : List Word) : List Word :=
  headWords h1 ++ [s1.r, s1.s] ++ headWords h2 ++ [s2.r, s2.s]
    ++ [uintWord index, l1, l2, uintWord 608, uintWord (608 + 32 * (1 + p1.length))]
    ++ (uintWord p1.length :: p1) ++ (uintWord p2.length :: p2)

def evidenceHashA (h1 : TreeHead) (s1 : Sig) (h2 : TreeHead) (s2 : Sig) : Word :=
  C.hashes.keccak256 (abiEncode (evidenceWords h1 s1 h2 s2 0 0 0 [] []))

def evidenceHashB (ev : EvidenceB) : Word :=
  C.hashes.keccak256 (abiEncode
    (evidenceWords ev.h1 ev.s1 ev.h2 ev.s2 ev.index.toNat ev.l1 ev.l2 ev.p1 ev.p2))

/-- A `bytes1` is the high byte of its word. -/
def bytes1Word (c : Char) : Word := uintWord (c.toNat * 2 ^ 248)

def keyA (epoch : UInt32) (treeSize : UInt64) (rootLo rootHi : Word) : Word :=
  C.hashes.keccak256 (abiEncode [bytes1Word 'A', uintWord epoch.toNat, uintWord treeSize.toNat,
    rootLo, rootHi])

def keyB (epoch : UInt32) (index : UInt64) (leafLo leafHi : Word) : Word :=
  C.hashes.keccak256 (abiEncode [bytes1Word 'B', uintWord epoch.toNat, uintWord index.toNat,
    leafLo, leafHi])

def order (a b : Word) : Word × Word := if a < b then (a, b) else (b, a)

/-- The largest `uint256` stands for "never". -/
def withdrawableAt (s : State) : Nat :=
  if s.noticeAt = 0 then 2 ^ 256 - 1 else s.noticeAt + noticePeriod

def revealGraceEnd (s : State) : Nat :=
  if s.noticeAt = 0 then 2 ^ 256 - 1
  else s.noticeAt + noticePeriod + minDelay + revealWindow

def expired (timestamp : Nat) (c : Commit) : Prop :=
  c.madeAt + minDelay + revealWindow < timestamp

instance (timestamp : Nat) (c : Commit) : Decidable (expired timestamp c) :=
  inferInstanceAs (Decidable (_ < _))

/-- Withdrawal is frozen before `freezeUntil`. -/
def frozen (timestamp : Nat) (s : State) : Prop := timestamp < s.freezeUntil

instance (timestamp : Nat) (s : State) : Decidable (frozen timestamp s) :=
  inferInstanceAs (Decidable (_ < _))

end EscrowState
