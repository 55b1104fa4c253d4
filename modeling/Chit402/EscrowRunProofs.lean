import Chit402.EscrowStepProofs

/-! # Runs of the escrow

    A run is a list of transactions at block times that never decrease.
    Reachable worlds are the ends of runs from deployment, and each position
    of a run is reachable too.

    `forkContract` is a deployed escrow whose issuer signed two one-leaf
    trees for epoch 7; later modules run it. -/

namespace EscrowRun

open ExceptFlow Solidity EscrowState EscrowContract EscrowStep

variable {C : Contract}

def run (C : Contract) (w : World) (txs : List Tx) : World := txs.foldl (EscrowStep.step C) w

@[simp] theorem run_nil (w : World) : run C w [] = w := rfl

@[simp] theorem run_cons (w : World) (tx : Tx) (txs : List Tx) :
    run C w (tx :: txs) = run C (EscrowStep.step C w tx) txs := rfl

theorem run_append (w : World) (txs later : List Tx) : run C w (txs ++ later) = run C (run C w txs) later :=
  List.foldl_append

theorem run_concat (w : World) (txs : List Tx) (tx : Tx) :
    run C w (txs ++ [tx]) = EscrowStep.step C (run C w txs) tx := by
  rw [run_append]
  rfl

/-- Block times never decrease. -/
def Timely (txs : List Tx) : Prop :=
  txs.Pairwise fun earlier later => earlier.msg.timestamp ≤ later.msg.timestamp

instance (txs : List Tx) : Decidable (Timely txs) :=
  inferInstanceAs (Decidable (txs.Pairwise fun a b => a.msg.timestamp ≤ b.msg.timestamp))

variable {c : Call} {txs : List Tx} {now : Nat} {tx : Tx} {w : World}

theorem timely_concat : Timely (txs ++ [tx])
      ↔ Timely txs ∧ ∀ earlier ∈ txs, earlier.msg.timestamp ≤ tx.msg.timestamp := by
  rw [Timely, List.pairwise_append]
  constructor
  · rintro ⟨h, -, hlast⟩
    exact ⟨h, fun earlier hmem => hlast earlier hmem tx (List.mem_singleton_self tx)⟩
  · rintro ⟨h, hlast⟩
    refine ⟨h, List.pairwise_singleton _ _, fun earlier hmem later hlater => ?_⟩
    rw [List.mem_singleton.mp hlater]
    exact hlast earlier hmem

/-- A call that goes through: what the transaction does to the world. -/
def Executes (C : Contract) (w : World) (tx : Tx) (c : Call) (w' : World) : Prop :=
  tx.action = .call c ∧ tx.msg.sender ≠ C.self ∧ exec C tx.msg c w = .ok w'

theorem Executes.step {w' : World} (h : Executes C w tx c w') : EscrowStep.step C w tx = w' := by
  obtain ⟨haction, hself, hexec⟩ := h
  rw [EscrowStep.step, haction]
  simp only [if_neg hself, hexec]

/-- A transaction leaves the escrow alone, or a call goes through. -/
theorem step_cases (C : Contract) (w : World) (tx : Tx) : (EscrowStep.step C w tx).escrow = w.escrow
      ∨ ∃ c, Executes C w tx c (EscrowStep.step C w tx) := by
  cases haction : tx.action with
  | outside balances allowance gift =>
    rw [EscrowStep.step, haction]
    exact Or.inl rfl
  | call c =>
    by_cases hself : tx.msg.sender = C.self
    · rw [EscrowStep.step, haction]
      simp only [if_pos hself, true_or]
    · cases hexec : exec C tx.msg c w with
      | error e =>
        rw [EscrowStep.step, haction]
        simp only [if_neg hself, hexec, true_or]
      | ok w' =>
        have h : Executes C w tx c w' := ⟨haction, hself, hexec⟩
        rw [h.step]
        exact Or.inr ⟨c, h⟩

theorem reachable_run {later : Nat} (h : Reachable C w now) (ht : Timely txs)
    (hfirst : ∀ tx ∈ txs, now ≤ tx.msg.timestamp) (hlast : ∀ tx ∈ txs, tx.msg.timestamp ≤ later) (hle : now ≤ later) :
    Reachable C (run C w txs) later := by
  induction txs generalizing w now with
  | nil => exact h.wait hle
  | cons tx txs ih =>
    obtain ⟨hhead, htail⟩ := List.pairwise_cons.mp ht
    have hstep := h.step tx (hfirst tx List.mem_cons_self)
    exact ih hstep htail hhead (fun tx' hmem => hlast tx' (List.mem_cons_of_mem _ hmem))
      (hlast tx List.mem_cons_self)

/-- **RUNS REACH**: every run from deployment ends in a reachable world. -/
theorem reachable_of_run (hC : Deployed C) (token : Token) (ht : Timely txs)
    (hlast : ∀ tx ∈ txs, tx.msg.timestamp ≤ now) : Reachable C (run C (start C token) txs) now :=
  reachable_run (.deployed hC token 0) ht (fun _ _ => Nat.zero_le _) hlast (Nat.zero_le _)

/-! ## A log that forked -/

def forkKid : Word :=
  0x4a41a8021b43f60b1bbc76fa1f47a4cbfe14cff9709d307dac9645bbc3231b5d

def forkPubX : Word :=
  0xae244731df31b34a068f457fe0c992f70b1502a59cd2db3fb3ad217cc14d786a

def forkPubY : Word :=
  0xeddf4acf3e954e4748cb464bf0db605b1773eb2000be8086c17b206964465681

def forkSalt : Word :=
  0x7a92860b2db8dfee1901affef1a3352ab94a3b3bfcc410aef7238ef170435211

/-- The leaf hash of the receipt, and of the one the issuer signed in its place. -/
def forkLeaf1 : Word :=
  0x4295ab197ec913c34e3620d7e9090edcc26dd5ee8d34590e436b36c158d78f01

def forkLeaf2 : Word :=
  0x47c09d584a6a417c86aa3e0147b67624b01cd3da1367322b7ce28d3b8bf5a678

def forkTreeHeadTypehash : Word :=
  0xf80e0f8d60b561c1041da3667da6c960baaa52b6b5a8d3ec70e506a054d3b7c7

def forkBindingTypehash : Word :=
  0x988137c56725cd0e31ca35c99b68f3e106602c950645b1a17ea521fe49100ba0

def forkDomainTypehash : Word :=
  0xa604fff5a27d5951f334ccda7abff3286a8af29caeeb196a6f2b40a1dce7612b

/-- The hashed domain names and version. -/
def forkTreeHeadName : Word :=
  0x462dc5abcc8b24ec231cf66749db61a8fb44b53eacf5f09a07d6fbb49e3f9642

def forkBindingName : Word :=
  0x7ced7ed9f820a3a65492b1115fad66d25abf9d6794366d750a06a2a42b0acc9e

def forkVersion : Word :=
  0xc89efdaa54c0f20c7adf612882df0950f5a951637e0307cdcb4c672f298b8bc6

def forkTreeHeadSeparator : Word :=
  0xf872d64db3e6a1016b2dbdef96c6065d8b1104416485c6ef465c2b9df8c4cbc9

def forkBindingSeparator : Word :=
  0xd8170c88933716d7fe5bddbc5ad0439731d3bdcbfdd8004c627b142f1d7be927

def forkLiveHead : TreeHead where
  epoch := 2
  treeSize := 39
  root := 0x889375b77befea7650d686ae2bb3a2d812c58007d3fc942cd8eb7cf4fc8d4e93
  publishedAt := 1799913600
  kid := forkKid

/-- A one-leaf tree of epoch 7: its root is the leaf. -/
def forkHead (leaf : Word) : TreeHead where
  epoch := 7
  treeSize := 1
  root := leaf
  publishedAt := 1800000000
  kid := forkKid

def forkLiveSig : Sig where
  r := 0xf5016980cde606ca84a742464d04cf1698e3632f4268c9c4336dbe60db4fd53a
  s := 0x4416cfe4609227e2f3b368daac5a416775518209d19a8de40aa93db60ab2cbb5

def forkSig1 : Sig where
  r := 0xc2d789da645bf3f7efb1bb6899ca8b3627f00eee9790f21096f74d05d2bfae8b
  s := 0x34a6a3b44c6af945eb3127851f71799faaae3c80aa42e00b7fec2c5e437ed8a5

def forkSig2 : Sig where
  r := 0xed18e3b2b72843fda0abc5383c3638febcdda6dcc29904527f44497459caa362
  s := 0x17933d4601371f5d8a517009b16b8a1db1e33903b169edb46ba37118c82708a3

def forkEvidence : EvidenceB where
  h1 := forkHead forkLeaf1
  s1 := forkSig1
  h2 := forkHead forkLeaf2
  s2 := forkSig2
  index := 0
  l1 := forkLeaf1
  l2 := forkLeaf2
  p1 := []
  p2 := []

def forkSelf : Address := 0xE5C
def forkOwner : Address := 0xA11CE
def forkAlice : Address := 0xA1
def forkCarol : Address := 0xCA201

def forkCommitSalt : Word :=
  0xd5d890a8e6533a3e5b7c17ba9f5802daca441e8dc0604e624a77300db3292a31

def forkPayerSalt : Word :=
  0x415fbd72082a1905921ae7fd7b2b6bcd6fafb36b9e0a8e32e944bc5d00dbb984

/-- Alice commits to the evidence for herself. -/
def forkCommit : Word :=
  0x34a4eab31110de2400329a62cb31a9a7bfc74253568dc4e34d46a6dfa217d160

def forkEvidenceHash : Word :=
  0x399f32e481f00b044c4efb25543b6470ab7b715ac3dbf7533839ff78f402f46b

/-- The evidence key of the two leaves. -/
def forkKey : Word :=
  0x25e6641b825ee65e7037972c692a9375ee2263c60cb8cf4268ff1cd30fa1281b

def forkCommitTag : Word :=
  0x013fb728b8894e16e3278caf7c922ebb10b250710c22e0844d9d75ca014f5486

def forkPayerTag : Word :=
  0x48d821d8afa6e4e7fb248cd90fb31e5b8e381d46154394f008c7ffabf630665d

def forkUsdc : Word :=
  0xe388d402aba230f5d279b790e1c6cb48e608d50c648f65eb394dfa8a44b5ddb5

def forkCarolCommitment : Word :=
  0x582867ee374fcd88ac5ed3a9c600b30d486120523c39cc475f127358c71457f3

def forkSelfCommitment : Word :=
  0xe008f98ef210e2a2a824e95fed0f76e8511e2edfb5ee23c1f9aaedc588f4b211

/-- The receipt of the first leaf, paid with two USDC. -/
def forkBinding (payerCommitment : Word) : ReceiptBinding where
  leafHash := forkLeaf1
  payerCommitment := payerCommitment
  amountAtomic := 2000000
  assetId := forkUsdc
  kid := forkKid

def forkCarolSig : Sig where
  r := 0x23aa105c0759de241135ecc2e32645d446c27026452482a9090e3450ddd96f45
  s := 0x1fa47d4ee1a056289a76930b443bfe677af68f9bcae7ec7eb0ed69ab03d60b09

def forkSelfSig : Sig where
  r := 0xfe4041fe0730ba842475b520aa4985787b751a687c8b294474f205c2d868ec32
  s := 0x7d91aacae95f78eb384f13296811955854765189600a2f0835d8ad8a9170e6bb

/-- A message read as a number: the key of the tables. -/
def bytesNat (bytes : List UInt8) : Nat := bytes.foldl (fun n b => n * 256 + b.toNat) 0

/-- The number of an encoded list of words. -/
def wordsNat (words : List Word) : Nat := words.foldl (fun n w => n * 2 ^ 256 + w.toNat) 0

/-- Keccak-256 of every message the sample runs hash. -/
def forkKeccakTable : List (Nat × Word) := [
  (wordsNat [7, forkKid],
    0x37816e4e768e2d10ade8541bc2c5e8eb1662056db648e40f2d2ed2b85cc57b46),
  (wordsNat [7, 1, forkLeaf1],
    0xcfc81527566cd6217a86885847eba4aaea91e9d5551d89ed5b614ff7d906f525),
  (wordsNat [7, 1, forkLeaf2],
    0x020d597112b8255af9480be2190e399f1945cf65294021a91311b0cb709c503a),
  (wordsNat [7, 1, forkLeaf1, 1800000000, forkKid, forkSig1.r, forkSig1.s,
      7, 1, forkLeaf2, 1800000000, forkKid, forkSig2.r, forkSig2.s,
      0, forkLeaf1, forkLeaf2, 608, 640, 0, 0], forkEvidenceHash),
  (wordsNat [forkCommitTag, 84532, 0xE5C, 0xA1, 0xA1, 2, forkEvidenceHash, forkCommitSalt],
    forkCommit),
  (wordsNat [uintWord (66 * 2 ^ 248), 7, 0, forkLeaf1, forkLeaf2], forkKey),
  (wordsNat [forkTreeHeadTypehash, 2, 39, forkLiveHead.root, 1799913600, forkKid],
    0x9391c9bfffd7da3117906fd45b02891463554aeaee7a9d15dac3dc0dc68b0630),
  (wordsNat [forkTreeHeadTypehash, 7, 1, forkLeaf1, 1800000000, forkKid],
    0x840f74f9de292fd37fe48fdaf6072b2a0b898ba394cb6eef174460151495b63b),
  (wordsNat [forkTreeHeadTypehash, 7, 1, forkLeaf2, 1800000000, forkKid],
    0x8bd27dc6598c831257d227cdc9f5e688a132c4410c0eb5a22d24f26a868b3954),
  (wordsNat [forkPayerTag, 0xCA201, forkPayerSalt], forkCarolCommitment),
  (wordsNat [forkPayerTag, 0xE5C, forkPayerSalt], forkSelfCommitment),
  (wordsNat [forkBindingTypehash, forkLeaf1, forkCarolCommitment, 2000000, forkUsdc, forkKid],
    0x46987355fc5df2fbb109745e0ea5a5174acdd198b46aabc6ba642231820555ea),
  (wordsNat [forkBindingTypehash, forkLeaf1, forkSelfCommitment, 2000000, forkUsdc, forkKid],
    0x996a82f53c8dfbf22c5c3e13351d8cd21f730d6b9695cab90c01f925122d544d),
  (wordsNat [forkDomainTypehash, forkTreeHeadName, forkVersion, 84532, forkSalt],
    forkTreeHeadSeparator),
  (wordsNat [forkDomainTypehash, forkBindingName, forkVersion, 84532, forkSalt],
    forkBindingSeparator),
  (bytesNat "chit402.escrow.v0.commit".toUTF8.toList, forkCommitTag),
  (bytesNat "chit402.payer-commitment.v1".toUTF8.toList, forkPayerTag),
  (bytesNat ("TreeHead(uint32 epoch,uint64 tree_size,bytes32 root,"
    ++ "uint64 published_at,bytes32 kid)").toUTF8.toList, forkTreeHeadTypehash),
  (bytesNat ("ReceiptBinding(bytes32 leaf_hash,bytes32 payer_commitment,"
    ++ "uint64 amount_atomic,bytes32 asset_id,bytes32 kid)").toUTF8.toList, forkBindingTypehash),
  (bytesNat "eip155:8453/erc20:0x833589fcd6edb6e08f4c7c32d4f71b54bda02913".toUTF8.toList,
    forkUsdc),
  (bytesNat "EIP712Domain(string name,string version,uint256 chainId,bytes32 salt)".toUTF8.toList,
    forkDomainTypehash),
  (bytesNat "Chit402TreeHead".toUTF8.toList, forkTreeHeadName),
  (bytesNat "Chit402ReceiptBinding".toUTF8.toList, forkBindingName),
  (bytesNat "1".toUTF8.toList, forkVersion)]

/-- SHA-256 of the key's JWK and of the signed messages. -/
def forkSha256Table : List (Nat × Word) := [
  (bytesNat ([0x19, 0x01] ++ wordBytes forkTreeHeadSeparator ++ wordBytes
      0x840f74f9de292fd37fe48fdaf6072b2a0b898ba394cb6eef174460151495b63b),
    0xbba60e52a447daf2c18d9405b88df8e18ecb7c09e9d75b483245ebb187e302cf),
  (bytesNat ([0x19, 0x01] ++ wordBytes forkTreeHeadSeparator ++ wordBytes
      0x8bd27dc6598c831257d227cdc9f5e688a132c4410c0eb5a22d24f26a868b3954),
    0x2757affd8e337205bcd44d3fd91b29ecd577af9449a71dcefe731f11577aa311),
  (bytesNat ([0x19, 0x01] ++ wordBytes forkBindingSeparator ++ wordBytes
      0x46987355fc5df2fbb109745e0ea5a5174acdd198b46aabc6ba642231820555ea),
    0x444eebc2501ba527de59c70033b6a59ef07b67904fa35e2066338345c4e42f27),
  (bytesNat ([0x19, 0x01] ++ wordBytes forkBindingSeparator ++ wordBytes
      0x996a82f53c8dfbf22c5c3e13351d8cd21f730d6b9695cab90c01f925122d544d),
    0x4f0af1e7622d09352285a8b97ee8a556aa70ca06540f958f2b7dc2192386f964),
  (bytesNat ([0x19, 0x01] ++ wordBytes forkTreeHeadSeparator ++ wordBytes
      0x9391c9bfffd7da3117906fd45b02891463554aeaee7a9d15dac3dc0dc68b0630),
    0x2282dcf3cb9f70da10c6781daff409ff020769937918659da2b6c300dcb1b14c),
  (bytesNat ("\x7b\"crv\":\"P-256\",\"kty\":\"EC\",\"x\":\"".toUTF8.toList ++ b64url32 forkPubX
    ++ "\",\"y\":\"".toUTF8.toList ++ b64url32 forkPubY ++ "\"\x7d".toUTF8.toList), forkKid)]

/-- The digests and signatures the precompile accepts. -/
def forkSigned : List (Word × Sig) := [
  (0x2282dcf3cb9f70da10c6781daff409ff020769937918659da2b6c300dcb1b14c, forkLiveSig),
  (0xbba60e52a447daf2c18d9405b88df8e18ecb7c09e9d75b483245ebb187e302cf, forkSig1),
  (0x2757affd8e337205bcd44d3fd91b29ecd577af9449a71dcefe731f11577aa311, forkSig2),
  (0x444eebc2501ba527de59c70033b6a59ef07b67904fa35e2066338345c4e42f27, forkCarolSig),
  (0x4f0af1e7622d09352285a8b97ee8a556aa70ca06540f958f2b7dc2192386f964, forkSelfSig)]

def forkHashes : Hashes where
  keccak256 := fun message => (forkKeccakTable.lookup (bytesNat message)).getD 0
  sha256 := fun message => (forkSha256Table.lookup (bytesNat message)).getD 0
  p256Verifier := fun e r s _ _ =>
    if forkSigned.any fun row => row.1 = e ∧ row.2.r = r ∧ row.2.s = s then (true, wordBytes 1)
    else (false, [])

def forkContract : Contract where
  hashes := forkHashes
  chainid := chainId
  self := forkSelf
  owner := forkOwner
  token := 0x036CbD53842c5426634e7929541eC2318f3dCF7e
  kid := forkKid
  pubX := forkPubX
  pubY := forkPubY
  logSalt := forkSalt
  treeHeadDomainSeparator := forkTreeHeadSeparator
  bindingDomainSeparator := forkBindingSeparator

theorem fork_deployed : Deployed forkContract := by
  have hkid : thumbprintP256 forkHashes forkPubX forkPubY = forkKid := by decide +kernel
  have htree : domainSeparator forkHashes "Chit402TreeHead" forkSalt = forkTreeHeadSeparator := by
    decide +kernel
  have hbinding : domainSeparator forkHashes "Chit402ReceiptBinding" forkSalt
      = forkBindingSeparator := by
    decide +kernel
  have hsigned : p256 forkContract (treeHeadDigest forkContract forkLiveHead) forkLiveSig.r
      forkLiveSig.s forkPubX forkPubY = true := by
    decide +kernel
  refine ⟨1, 6, forkLiveHead, forkLiveSig, ?_⟩
  show deploy forkHashes chainId 1 6 forkSelf forkOwner forkContract.token forkKid forkPubX forkPubY
    forkSalt forkLiveHead forkLiveSig = _
  rw [deploy, guarded_of_not (by decide), guarded_of_not (by decide), guarded_of_not (by decide),
    guarded_of_not (by decide), guarded_of_not (not_not.mpr hkid), htree, hbinding]
  show (revertIf (forkKid ≠ forkKid) _ >>= fun _ =>
    revertIf (¬ p256 forkContract (treeHeadDigest forkContract forkLiveHead) forkLiveSig.r
      forkLiveSig.s forkPubX forkPubY) _ >>= fun _ => Except.ok forkContract) = _
  rw [guarded_of_not (not_not.mpr rfl), guarded_of_not (not_not.mpr hsigned)]

scoped instance neZero_two_pow_48 : NeZero (2 ^ 48) := ⟨by decide⟩

def forkMsg (sender : Address) (timestamp : Fin (2 ^ 48)) : Msg where
  sender := sender
  timestamp := timestamp
  inRange := timestamp.isLt

def forkTx (sender : Address) (timestamp : Fin (2 ^ 48)) (c : Call) : Tx where
  msg := forkMsg sender timestamp
  action := .call c

/-- The owner holds and approves the bond. -/
def forkToken : Token where
  balanceOf := fun a => if a = forkOwner then 1000000000 else 0
  allowance := fun a => if a = forkOwner then 1000000000 else 0
  transfers := []

/-- Notice 14 days after activation, a commit a day later, and its reveal. -/
def forkRevealTxs : List Tx := [
  forkTx forkOwner 1800000000 (.pinQuarantineList 1 [] []),
  forkTx forkOwner 1800000000 (.fund 1000000000),
  forkTx forkOwner 1800000000 .activate,
  forkTx forkOwner 1801209600 .giveNotice,
  forkTx forkAlice 1801296000 (.commit forkCommit),
  forkTx forkAlice 1801296300 (.revealB forkEvidence forkAlice forkCommitSalt)]

def forkRefund (payer : Address) (payerCommitment : Word) (sig : Sig) : Call :=
  .registerRefund forkKey (forkBinding payerCommitment) sig payer forkPayerSalt

def forkTxs (payer : Address) (payerCommitment : Word) (sig : Sig) : List Tx :=
  forkRevealTxs ++ [forkTx forkCarol 1801296300 (forkRefund payer payerCommitment sig)]

def forkRun (txs : List Tx) : World := run forkContract (start forkContract forkToken) txs

theorem exec_of_isSome {m : Msg} (h : (exec C m c w).toOption.isSome = true) : ∃ w', exec C m c w = .ok w' := by
  cases hexec : exec C m c w with
  | error e =>
    rw [hexec] at h
    cases h
  | ok w' => exact ⟨w', rfl⟩

theorem fork_reachable (ht : Timely txs) (hlast : ∀ tx ∈ txs, tx.msg.timestamp ≤ now) :
    Reachable forkContract (forkRun txs) now :=
  reachable_of_run fork_deployed forkToken ht hlast

end EscrowRun
