import Chit402.EscrowRunProofs

/-! # The escrow slashes forks, and only forks

    With the precompile accepting exactly the heads the issuer signed, an
    honest log is never slashed, and a fork under two signed heads always is.

    The first part rests on soundness of the inclusion check at two sizes at
    once, the second on its completeness. -/

namespace EscrowEvidence

open ExceptFlow Solidity MerkleLevel EscrowState EscrowContract EscrowStep EscrowMerkle EscrowRun Function

variable {C : Contract} {m : Msg}

/-- The precompile accepts exactly the heads the issuer signed. -/
def PrecompileAccepts (C : Contract) (signed : TreeHead → Sig → Prop) : Prop :=
  ∀ h sig, p256 C (treeHeadDigest C h) sig.r sig.s C.pubX C.pubY = true ↔ signed h sig

/-- The head is the root of the first `treeSize` leaf hashes of its epoch's sequence. -/
def PrefixHead (C : Contract) (L : UInt32 → List Word) (h : TreeHead) : Prop :=
  h.treeSize.toNat ≤ (L h.epoch).length
    ∧ h.root = treeHash C.hashes.sha256 ((L h.epoch).take h.treeSize.toNat)

/-! ## An honest log is never slashed -/

variable {payTo : Address} {i : Fin maxOpenCommits} {message : List UInt8} {s : State} {h h1 h2 : TreeHead}
  {L : UInt32 → List Word} {index : UInt64} {salt : Word}

theorem PrefixHead.root_eq (hp1 : PrefixHead C L h1) (hp2 : PrefixHead C L h2) (hepoch : h1.epoch = h2.epoch)
    (hsize : h1.treeSize = h2.treeSize) : h1.root = h2.root := by
  rw [hp1.2, hp2.2, hepoch, hsize]

theorem PrefixHead.leaf (hp : PrefixHead C L h) (hcf : PrefixCollisionFree (nodeHash C.hashes.sha256) (L h.epoch))
    {leaf : Word} {proof : List Word}
    (hproof : verifyInclusion C.hashes.sha256 leaf index h.treeSize h.root proof = true) :
    (L h.epoch)[index.toNat]? = some leaf := by
  rw [hp.2] at hproof
  have hlt := UInt64.lt_iff_toNat_lt.mp ((verifyInclusion_iff _ ..).mp hproof).1
  have hlen : ((L h.epoch).take h.treeSize.toNat).length = h.treeSize.toNat := by
    rw [List.length_take, Nat.min_eq_left hp.1]
  have := verifyInclusion_sound (hcf _) hlen hproof
  rwa [List.getElem?_take, if_pos hlt] at this

/-- **SAFETY**: no call reveals against a log whose signed heads are prefix heads. -/
theorem honest_never_revealed (hcf : ∀ e, PrefixCollisionFree (nodeHash C.hashes.sha256) (L e))
    (honest : ∀ h sig, SignedHead C h sig → PrefixHead C L h) (s s' : State) :
    (∀ h1 s1 h2 s2 payTo salt, revealA C m h1 s1 h2 s2 payTo salt s ≠ .ok s')
      ∧ ∀ ev payTo salt, revealB C m ev payTo salt s ≠ .ok s' := by
  constructor
  · intro h1 s1 h2 s2 payTo salt h
    obtain ⟨-, hs1, hs2, hepoch, hsize, hroot⟩ := revealA_ok h
    exact hroot ((honest _ _ hs1).root_eq (honest _ _ hs2) hepoch hsize)
  · intro ev payTo salt h
    obtain ⟨-, hs1, hs2, hepoch, hleaf, hproof1, hproof2⟩ := revealB_ok h
    have hx1 := (honest _ _ hs1).leaf (hcf _) hproof1
    have hx2 := (honest _ _ hs2).leaf (hcf _) hproof2
    rw [hepoch, hx2, Option.some.injEq] at hx1
    exact hleaf hx1.symm

/-! ## A fork is provable -/

/-- The evidence two forked leaf sequences give. -/
def forkEvidence (C : Contract) (h1 : TreeHead) (s1 : Sig) (h2 : TreeHead) (s2 : Sig)
    (index : UInt64) (D1 D2 : List Word) : EvidenceB where
  h1 := h1
  s1 := s1
  h2 := h2
  s2 := s2
  index := index
  l1 := D1.getD index.toNat 0
  l2 := D2.getD index.toNat 0
  p1 := path (nodeHash C.hashes.sha256) (C.hashes.sha256 []) index.toNat D1
  p2 := path (nodeHash C.hashes.sha256) (C.hashes.sha256 []) index.toNat D2

theorem forkEvidence_included {D : List Word} (hlen : D.length = h.treeSize.toNat)
    (hroot : h.root = treeHash C.hashes.sha256 D) (hi : index.toNat < D.length) :
    index < h.treeSize ∧ verifyInclusion C.hashes.sha256 (D.getD index.toNat 0) index h.treeSize
      h.root (path (nodeHash C.hashes.sha256) (C.hashes.sha256 []) index.toNat D) = true := by
  refine ⟨UInt64.lt_iff_toNat_lt.mpr (by omega), ?_⟩
  rw [hroot]
  refine verifyInclusion_complete hlen ?_
  rw [List.getD_eq_getElem?_getD, List.getElem?_eq_getElem hi]
  rfl

/-- A sender with an empty slot always has a slot to use. -/
theorem scanSlots_isSome (s : State) (c : Word) (slot : Option (Fin maxOpenCommits))
    (slots : List (Fin maxOpenCommits)) (hi : i ∈ slots) (hempty : s.commitSlots m.sender i = 0) :
    ∃ j, scanSlots m s c slot slots = some j := by
  induction slots generalizing slot with
  | nil => exact absurd hi List.not_mem_nil
  | cons k rest ih =>
    rw [scanSlots]
    by_cases hc : s.commitSlots m.sender k = c
    · exact ⟨k, if_pos hc⟩
    · simp only [if_neg hc]
      by_cases h0 : s.commitSlots m.sender k = 0
      · rw [if_pos h0]
        cases slot with
        | none => exact ⟨k, rfl⟩
        | some j => exact ⟨j, rfl⟩
      · rw [if_neg h0]
        rcases List.mem_cons.mp hi with rfl | hi
        · exact absurd hempty h0
        · exact ih _ hi

/-- Before coverage ends, a fresh hash from a sender with an empty slot is committed. -/
theorem commit_fresh {c : Word} (hclosed : s.closed = false)
    (hcover : s.noticeAt ≠ 0 → m.timestamp < s.noticeAt + noticePeriod)
    (hfresh : (s.commits c).committer = 0 ∨ expired m.timestamp (s.commits c)) (hslot : s.commitSlots m.sender i = 0)
    (hseq : s.commitSeq + 1 < 2 ^ 48) : ∃ s', commit m c s = .ok s' ∧ s'.commits c
        = { committer := m.sender, madeAt := m.timestamp, seq := s.commitSeq + 1 }
      ∧ s'.activatedAt = s.activatedAt ∧ s'.closed = s.closed
      ∧ s'.quarantined = s.quarantined := by
  obtain ⟨slot, hscan⟩ := scanSlots_isSome s c none _ (List.mem_finRange i) hslot
  have htime : m.timestamp % 2 ^ 48 = m.timestamp := Nat.mod_eq_of_lt m.inRange
  have hnotLive : ¬ ((s.commits c).committer ≠ 0 ∧ ¬ expired m.timestamp (s.commits c)) := by
    rintro ⟨hne, hlive⟩
    exact hfresh.elim hne hlive
  rw [commit, guarded_of_not (by rw [hclosed]; exact Bool.false_ne_true),
    guarded_of_not (fun h => absurd (hcover h.1) (Nat.not_lt.mpr h.2)), guarded_of_not hnotLive, hscan]
  simp only
  rw [add_ok_iff.mpr ⟨hseq, rfl⟩, ok_bind, htime]
  exact ⟨_, rfl, update_self .., rfl, rfl, rfl⟩

theorem consumeCommit_window {evidenceType : Nat} {evidenceHash : Word} {cm : Commit} (hact : s.activatedAt ≠ 0)
    (hclosed : s.closed = false) (hpay : payTo ≠ 0) (hsender : m.sender ≠ 0)
    (hcm : s.commits (commitHash C m.sender payTo evidenceType evidenceHash salt) = cm)
    (hcommitter : cm.committer = m.sender) (hyoung : cm.madeAt + minDelay ≤ m.timestamp)
    (hlate : m.timestamp ≤ cm.madeAt + minDelay + revealWindow) :
    consumeCommit C m payTo evidenceType evidenceHash salt s
      = .ok (cm.seq, { s with
          commits := update s.commits
            (commitHash C m.sender payTo evidenceType evidenceHash salt) noCommit }) := by
  rw [consumeCommit, guarded_of_not (by rw [hclosed]; simpa using hact)]
  simp only [hcm]
  rw [hcommitter, guarded_of_not (by simpa using hsender), guarded_of_not (Nat.not_lt.mpr hyoung),
    guarded_of_not (Nat.not_lt.mpr hlate), guarded_of_not hpay]

/-- A reveal whose checks all pass comes down to recording it. -/
theorem revealB_eq_record {ev : EvidenceB} {seq : Nat} {s1 : State}
    (hconsume : consumeCommit C m payTo evidenceB (evidenceHashB C ev) salt s = .ok (seq, s1))
    (hepoch : ev.h1.epoch = ev.h2.epoch) (hleaf : ev.l1 ≠ ev.l2) (hindex1 : ev.index < ev.h1.treeSize)
    (hindex2 : ev.index < ev.h2.treeSize) (hhead1 : checkHead C ev.h1 ev.s1 s1 = .ok ())
    (hhead2 : checkHead C ev.h2 ev.s2 s1 = .ok ())
    (hproof1 : verifyInclusion C.hashes.sha256 ev.l1 ev.index ev.h1.treeSize ev.h1.root ev.p1 = true)
    (hproof2 : verifyInclusion C.hashes.sha256 ev.l2 ev.index ev.h2.treeSize ev.h2.root ev.p2 = true) :
    revealB C m ev payTo salt s = record C m (keyB C ev.h1.epoch ev.index (order ev.l1 ev.l2).1 (order ev.l1 ev.l2).2)
          evidenceB ev.h1.epoch seq payTo (order ev.l1 ev.l2).1 (order ev.l1 ev.l2).2 s1 := by
  rw [revealB, hconsume, ok_bind]
  simp only
  rw [guarded_of_not (not_or.mpr ⟨not_not.mpr hepoch, hleaf⟩),
    guarded_of_not (not_or.mpr ⟨UInt64.not_le.mpr hindex1, UInt64.not_le.mpr hindex2⟩), hhead1,
      ok_bind, hhead2, ok_bind, guarded_of_not (not_not.mpr hproof1),
    guarded_of_not (not_not.mpr hproof2)]

/-- What a state must offer for a commit `m` and a reveal `m'` by one sender: coverage, an
    empty slot, no live commit of that hash, and the reveal inside its window. -/
structure CommitAndReveal (s : State) (m m' : Msg) (payTo : Address) (c : Word) : Prop where
  activated : s.activatedAt ≠ 0
  opened : s.closed = false
  covered : s.noticeAt ≠ 0 → m.timestamp < s.noticeAt + noticePeriod
  fresh : (s.commits c).committer = 0 ∨ expired m.timestamp (s.commits c)
  slot : ∃ i, s.commitSlots m.sender i = 0
  seq : s.commitSeq + 1 < 2 ^ 48
  payTo : payTo ≠ 0
  sender : m.sender ≠ 0
  sameSender : m'.sender = m.sender
  young : m.timestamp + minDelay ≤ m'.timestamp
  late : m'.timestamp ≤ m.timestamp + minDelay + revealWindow

/-- **COMPLETENESS**: forked sequences under two signed heads give evidence that passes
    the commit checks, the equivocation test, both head checks and both inclusion
    checks, so the reveal comes down to recording it. -/
theorem fork_recorded {s1 s2 : Sig} {D1 D2 : List Word} (hs1 : SignedHead C h1 s1) (hs2 : SignedHead C h2 s2)
    (hepoch : h1.epoch = h2.epoch) (hlen1 : D1.length = h1.treeSize.toNat) (hlen2 : D2.length = h2.treeSize.toNat)
    (hroot1 : h1.root = treeHash C.hashes.sha256 D1) (hroot2 : h2.root = treeHash C.hashes.sha256 D2)
    (hi1 : index.toNat < D1.length) (hi2 : index.toNat < D2.length) (hfork : D1[index.toNat] ≠ D2[index.toNat])
    (s : State) (m m' : Msg) (payTo : Address) (salt : Word)
    (hq1 : s.quarantined (headRefKey C h1.epoch h1.treeSize h1.root) = false)
    (hq2 : s.quarantined (headRefKey C h2.epoch h2.treeSize h2.root) = false)
    (hcr : CommitAndReveal s m m' payTo (commitHash C m.sender payTo evidenceB
      (evidenceHashB C (forkEvidence C h1 s1 h2 s2 index D1 D2)) salt)) :
    ∃ mid, commit m (commitHash C m.sender payTo evidenceB
        (evidenceHashB C (forkEvidence C h1 s1 h2 s2 index D1 D2)) salt) s = .ok mid
      ∧ ∃ key lo hi commits, revealB C m' (forkEvidence C h1 s1 h2 s2 index D1 D2) payTo salt mid
        = record C m' key evidenceB h1.epoch (s.commitSeq + 1) payTo lo hi { mid with commits := commits } := by
  obtain ⟨i, hslot⟩ := hcr.slot
  obtain ⟨mid, hmid, hcm, hact, hclosed, hq⟩ :=
    commit_fresh hcr.opened hcr.covered hcr.fresh hslot hcr.seq
  refine ⟨mid, hmid, ?_⟩
  rw [← hcr.sameSender] at hcm
  have hconsume := consumeCommit_window (by rw [hact]; exact hcr.activated)
    (by rw [hclosed]; exact hcr.opened) hcr.payTo (by rw [hcr.sameSender]; exact hcr.sender)
    hcm rfl hcr.young hcr.late
  obtain ⟨hindex1, hproof1⟩ := forkEvidence_included hlen1 hroot1 hi1
  obtain ⟨hindex2, hproof2⟩ := forkEvidence_included hlen2 hroot2 hi2
  have hleaf : (forkEvidence C h1 s1 h2 s2 index D1 D2).l1
      ≠ (forkEvidence C h1 s1 h2 s2 index D1 D2).l2 := by
    rw [forkEvidence, List.getD_eq_getElem?_getD, List.getD_eq_getElem?_getD,
      List.getElem?_eq_getElem hi1, List.getElem?_eq_getElem hi2]
    exact hfork
  rw [revealB_eq_record hconsume hepoch hleaf hindex1 hindex2
    (checkHead_ok_iff.mpr ⟨hs1, by rw [← hq1]; exact congrFun hq _⟩)
    (checkHead_ok_iff.mpr ⟨hs2, by rw [← hq2]; exact congrFun hq _⟩) hproof1 hproof2]
  exact ⟨_, _, _, _, rfl⟩

/-- **ONLY FORKS ARE SLASHED**: with the precompile accepting exactly the signed heads, no
    reveal succeeds against prefix heads of one sequence per epoch, and forked sequences
    under two signed heads give evidence that passes every check. -/
theorem slashes_exactly_forks {signed : TreeHead → Sig → Prop} (hprecompile : PrecompileAccepts C signed) :
    (∀ L : UInt32 → List Word, (∀ e, PrefixCollisionFree (nodeHash C.hashes.sha256) (L e)) →
      (∀ h sig, signed h sig → PrefixHead C L h) → ∀ w now, Reachable C w now → ∀ (m : Msg) (s' : State),
        (∀ h1 s1 h2 s2 payTo salt, revealA C m h1 s1 h2 s2 payTo salt w.escrow ≠ .ok s')
          ∧ ∀ ev payTo salt, revealB C m ev payTo salt w.escrow ≠ .ok s')
    ∧ ∀ (h1 h2 : TreeHead) (s1 s2 : Sig) (D1 D2 : List Word) (index : UInt64),
      signed h1 s1 → signed h2 s2 → h1.kid = C.kid → h2.kid = C.kid → h1.epoch = h2.epoch →
      D1.length = h1.treeSize.toNat → h1.root = treeHash C.hashes.sha256 D1 →
      D2.length = h2.treeSize.toNat → h2.root = treeHash C.hashes.sha256 D2 →
      ∀ (hi1 : index.toNat < D1.length) (hi2 : index.toNat < D2.length), D1[index.toNat] ≠ D2[index.toNat] →
      ∃ ev : EvidenceB, ∀ (s : State) (m m' : Msg) (payTo : Address) (salt : Word),
        s.quarantined (headRefKey C h1.epoch h1.treeSize h1.root) = false →
        s.quarantined (headRefKey C h2.epoch h2.treeSize h2.root) = false → CommitAndReveal s m m' payTo
          (commitHash C m.sender payTo evidenceB (evidenceHashB C ev) salt) →
        ∃ mid, commit m (commitHash C m.sender payTo evidenceB (evidenceHashB C ev) salt) s = .ok mid
          ∧ ∃ key lo hi commits, revealB C m' ev payTo salt mid
            = record C m' key evidenceB h1.epoch (s.commitSeq + 1) payTo lo hi { mid with commits := commits } := by
  constructor
  · intro L hcf honest w now _ m s'
    exact honest_never_revealed hcf
      (fun h sig hs => honest h sig ((hprecompile h sig).mp hs.2)) w.escrow s'
  · intro h1 h2 s1 s2 D1 D2 index hs1 hs2 hk1 hk2 hepoch hlen1 hroot1 hlen2 hroot2 hi1 hi2 hfork
    exact ⟨_, fun s m m' payTo salt hq1 hq2 hcr =>
      fork_recorded ⟨hk1, (hprecompile _ _).mpr hs1⟩ ⟨hk2, (hprecompile _ _).mpr hs2⟩ hepoch
        hlen1 hlen2 hroot1 hroot2 hi1 hi2 hfork s m m' payTo salt hq1 hq2 hcr⟩

/-! ### A one-leaf log with one signed head -/

def sampleHead : TreeHead where
  epoch := 0
  treeSize := 1
  root := 0x3d5ca53baac8975b0ebef9e030b5cb2b70ca2ba465fbc137222b6a82ba6feddf
  publishedAt := 1700000000
  kid := 0x07b4a2bfdbae1a2741532d6ae7d795252c89bc2c3c3588aa28bba485c790ead7

def sampleSig : Sig where
  r := 0xf654d170bc7776d677c0ab3158917ed1d045147bbc657d3c233044454b45beb1
  s := 0x3ea3ff4f221b7e1347fd2b3f4657730dbfb0ea73742ef657fc73fd8003e2349d

def sampleSeparator : Word := 0xe249f68fca0340e807745e553f97c4354ad6dbc60df87dcb61f3641087c07406

def sampleStruct : Word := 0x399b41cb920c099b27adffbfddc4aae7f38fe9f1ee05ff9fa190724fbf07ee66

def sampleDigest : Word := 0x04ee9755ca05e940bf300066fc08dc188a52b8a5f41126ab1a0dd64a2154abe6

def samplePubX : Word := 0xea9471238d541e4408db53b575c80ac6b99882288d8bd7967c70cd4f464c3974

def samplePubY : Word := 0x5f3655884c7598095a414a722b13115ead60b9eb0cdc8f965d82da4c9298d322

def sampleSalt : Word := 0x1eb9fd6650c3d2723303dccba4c9c876a4d059e0c7ae61e7e472c7c1ae3a4eda

def sampleBindingSeparator : Word := 0x7df51e9dd4236cb208834f2305bd6de2ea0ca750a3846804298d6892d7becb23

/-- Keccak-256 of the strings and domains the constructor hashes. -/
def sampleConstructorKeccak (message : List UInt8) : Word :=
  if message = ("TreeHead(uint32 epoch,uint64 tree_size,bytes32 root,"
      ++ "uint64 published_at,bytes32 kid)").toUTF8.toList then forkTreeHeadTypehash
  else if message = ("EIP712Domain(string name,string version,uint256 chainId,"
      ++ "bytes32 salt)").toUTF8.toList then forkDomainTypehash
  else if message = "Chit402TreeHead".toUTF8.toList then
    forkTreeHeadName
  else if message = "Chit402ReceiptBinding".toUTF8.toList then
    forkBindingName
  else if message = "1".toUTF8.toList then
    forkVersion
  else if message = abiEncode [forkDomainTypehash,
      forkTreeHeadName,
      forkVersion, 84532,
      sampleSalt] then sampleSeparator
  else if message = abiEncode [forkDomainTypehash,
      forkBindingName,
      forkVersion, 84532,
      sampleSalt] then sampleBindingSeparator
  else 0

/-- The key's JWK thumbprint input. -/
def sampleJwk : List UInt8 :=
  "\x7b\"crv\":\"P-256\",\"kty\":\"EC\",\"x\":\"".toUTF8.toList ++ b64url32 samplePubX
    ++ "\",\"y\":\"".toUTF8.toList ++ b64url32 samplePubY ++ "\"\x7d".toUTF8.toList

/-- Keccak-256 and SHA-256 on every message the sample hashes, and the precompile on its
    signature; zero and failure elsewhere. -/
def sampleHashes : Hashes where
  keccak256 := fun message =>
    if message = abiEncode [forkTreeHeadTypehash, 0, 1, sampleHead.root, 1700000000, sampleHead.kid] then
      sampleStruct
    else sampleConstructorKeccak message
  sha256 := fun message =>
    if message = [0x19, 0x01] ++ wordBytes sampleSeparator ++ wordBytes sampleStruct then
      sampleDigest
    else if message = sampleJwk then sampleHead.kid
    else 0
  p256Verifier := fun e r s _ _ =>
    if e = sampleDigest ∧ r = sampleSig.r ∧ s = sampleSig.s then (true, wordBytes 1)
    else (false, [])

def sampleContract : Contract where
  hashes := sampleHashes
  chainid := chainId
  self := 0xe5c0
  owner := 0x0e
  token := 0x036CbD53842c5426634e7929541eC2318f3dCF7e
  kid := sampleHead.kid
  pubX := samplePubX
  pubY := samplePubY
  logSalt := sampleSalt
  treeHeadDomainSeparator := sampleSeparator
  bindingDomainSeparator := sampleBindingSeparator

/-- The issuer signed the sample head and nothing else. -/
def sampleSigned (h : TreeHead) (sig : Sig) : Prop := h = sampleHead ∧ sig = sampleSig

theorem sampleConstructorKeccak_ne (message : List UInt8) : sampleConstructorKeccak message ≠ sampleStruct := by
  unfold sampleConstructorKeccak
  split_ifs <;> decide

theorem sampleStruct_message (h : sampleHashes.keccak256 message = sampleStruct) :
    message = abiEncode [forkTreeHeadTypehash, 0, 1, sampleHead.root, 1700000000, sampleHead.kid] := by
  by_contra hne
  change (if _ then _ else _) = _ at h
  rw [if_neg hne] at h
  exact sampleConstructorKeccak_ne message h

theorem sampleDigest_message (h : sampleHashes.sha256 message = sampleDigest) :
    message = [0x19, 0x01] ++ wordBytes sampleSeparator ++ wordBytes sampleStruct := by
  by_contra hne
  change (if _ then _ else _) = _ at h
  rw [if_neg hne] at h
  split at h
  · exact absurd h (by decide)
  · exact absurd h (by decide)

/-- Only the sample head has the digest the precompile accepts. -/
theorem sampleDigest_iff (h : TreeHead) : treeHeadDigest sampleContract h = sampleDigest ↔ h = sampleHead := by
  constructor
  · intro hd
    have hstruct := wordBytes_injective (List.append_cancel_left (sampleDigest_message hd))
    have hwords := abiEncode_injective (sampleStruct_message hstruct)
    simp only [List.cons.injEq, and_true] at hwords
    obtain ⟨-, hepoch, hsize, hroot, hpub, hkid⟩ := hwords
    have he := uintWord_inj (Nat.lt_trans h.epoch.toNat_lt (by decide))
      (show 0 < 2 ^ 256 by decide) hepoch
    have hs := uintWord_inj (Nat.lt_trans h.treeSize.toNat_lt (by decide))
      (show 1 < 2 ^ 256 by decide) hsize
    have hp := uintWord_inj (Nat.lt_trans h.publishedAt.toNat_lt (by decide))
      (show 1700000000 < 2 ^ 256 by decide) hpub
    obtain ⟨epoch, treeSize, root, publishedAt, kid⟩ := h
    obtain rfl := hroot
    obtain rfl := hkid
    obtain rfl : epoch = 0 := UInt32.toNat_inj.mp he
    obtain rfl : treeSize = 1 := UInt64.toNat_inj.mp hs
    obtain rfl : publishedAt = 1700000000 := UInt64.toNat_inj.mp hp
    rfl
  · rintro rfl
    decide +kernel

theorem sampleP256_iff (e r s x y : Word) : p256 sampleContract e r s x y = true
      ↔ e = sampleDigest ∧ r = sampleSig.r ∧ s = sampleSig.s := by
  have hanswer : sampleContract.hashes.p256Verifier e r s x y
      = if e = sampleDigest ∧ r = sampleSig.r ∧ s = sampleSig.s then (true, wordBytes 1)
        else (false, []) := rfl
  rw [p256, hanswer]
  split
  · rename_i h
    simp [h, length_wordBytes]
  · rename_i h
    simp [h]

theorem samplePrecompile : PrecompileAccepts sampleContract sampleSigned := by
  intro h sig
  rw [sampleP256_iff, sampleDigest_iff, sampleSigned]
  refine and_congr_right fun _ => ?_
  obtain ⟨r, s⟩ := sig
  rw [show sampleSig = ⟨sampleSig.r, sampleSig.s⟩ from rfl, Sig.mk.injEq]

theorem sample_deployed : Deployed sampleContract := by
  have hkid : thumbprintP256 sampleHashes samplePubX samplePubY = sampleHead.kid := by
    decide +kernel
  have htree : domainSeparator sampleHashes "Chit402TreeHead" sampleSalt = sampleSeparator := by
    decide +kernel
  have hbinding : domainSeparator sampleHashes "Chit402ReceiptBinding" sampleSalt
      = sampleBindingSeparator := by
    decide +kernel
  refine ⟨1, 6, sampleHead, sampleSig, ?_⟩
  show deploy sampleHashes chainId 1 6 sampleContract.self sampleContract.owner
    sampleContract.token sampleHead.kid samplePubX samplePubY sampleSalt sampleHead sampleSig = _
  rw [deploy, guarded_of_not (by decide), guarded_of_not (by decide), guarded_of_not (by decide),
    guarded_of_not (by decide), guarded_of_not (not_not.mpr hkid), htree, hbinding]
  show (revertIf (sampleHead.kid ≠ sampleHead.kid) _ >>= fun _ =>
    revertIf (¬ p256 sampleContract (treeHeadDigest sampleContract sampleHead) sampleSig.r
      sampleSig.s samplePubX samplePubY) _ >>= fun _ => Except.ok sampleContract) = _
  rw [guarded_of_not (not_not.mpr rfl),
    guarded_of_not (not_not.mpr ((sampleP256_iff ..).mpr ⟨(sampleDigest_iff sampleHead).mpr rfl, rfl, rfl⟩))]

/-- One leaf in epoch 0. -/
def sampleLog (e : UInt32) : List Word := if e = 0 then [sampleHead.root] else []

/-- The heads whose digests the precompile accepts of the forked log. -/
def forkSignedHead (h : TreeHead) (sig : Sig) : Prop :=
  p256 forkContract (treeHeadDigest forkContract h) sig.r sig.s forkPubX forkPubY = true

/-- The escrow after notice, before Alice commits. -/
def noticed : State := (forkRun (forkRevealTxs.take 4)).escrow

theorem noticed_commits (c : Word) : noticed.commits c = noCommit := by rfl

theorem slashes_exactly_forks_sample : (Deployed sampleContract
    ∧ ∀ w now, Reachable sampleContract w now → ∀ (m : Msg) (s' : State),
      (∀ h1 s1 h2 s2 payTo salt, revealA sampleContract m h1 s1 h2 s2 payTo salt w.escrow ≠ .ok s')
        ∧ ∀ ev payTo salt, revealB sampleContract m ev payTo salt w.escrow ≠ .ok s')
    ∧ Deployed forkContract ∧ ∃ ev mid, commit (forkMsg forkAlice 1801296000)
      (commitHash forkContract forkAlice forkAlice
        evidenceB (evidenceHashB forkContract ev) forkCommitSalt) noticed = .ok mid
      ∧ ∃ key lo hi commits, revealB forkContract (forkMsg forkAlice 1801296300) ev forkAlice forkCommitSalt mid
        = record forkContract (forkMsg forkAlice 1801296300) key evidenceB 7 1 forkAlice lo hi
          { mid with commits := commits } := by
  refine ⟨⟨sample_deployed, ?_⟩, fork_deployed, ?_⟩
  · refine (slashes_exactly_forks samplePrecompile).1 sampleLog (fun e => ?_) ?_
    · refine PrefixCollisionFree.of_short ?_
      rw [sampleLog]
      split
      · exact Nat.le_refl 1
      · exact Nat.zero_le 1
    · rintro h sig ⟨rfl, rfl⟩
      rw [PrefixHead, show sampleLog sampleHead.epoch = [sampleHead.root] from if_pos rfl,
        show sampleHead.treeSize.toNat = 1 from rfl, List.take_one, List.head?_cons,
        Option.toList_some, treeHash, mth_singleton]
      exact ⟨Nat.le_refl 1, rfl⟩
  · have hprecompile : PrecompileAccepts forkContract forkSignedHead := fun _ _ => Iff.rfl
    have hsigned : forkSignedHead (forkHead forkLeaf1) forkSig1 ∧ forkSignedHead (forkHead forkLeaf2) forkSig2 := by
      unfold forkSignedHead
      decide +kernel
    obtain ⟨ev, hev⟩ := (slashes_exactly_forks hprecompile).2 (forkHead forkLeaf1)
      (forkHead forkLeaf2) forkSig1 forkSig2
      [forkLeaf1] [forkLeaf2] 0 hsigned.1 hsigned.2 rfl rfl rfl rfl (mth_singleton ..).symm rfl (mth_singleton ..).symm
      Nat.zero_lt_one Nat.zero_lt_one (by decide)
    have hstate : noticed.activatedAt = 1800000000 ∧ noticed.closed = false ∧ noticed.noticeAt = 1801209600
        ∧ (∃ i, noticed.commitSlots forkAlice i = 0) ∧ noticed.commitSeq = 0
        ∧ noticed.quarantined (headRefKey forkContract 7 1 forkLeaf1) = false
        ∧ noticed.quarantined (headRefKey forkContract 7 1 forkLeaf2) = false := by
      decide +kernel
    obtain ⟨hactivated, hclosed, hnotice, hslot, hseq, hq1, hq2⟩ := hstate
    obtain ⟨mid, hcommit, hreveal⟩ := hev noticed (forkMsg forkAlice 1801296000)
      (forkMsg forkAlice 1801296300) forkAlice
      forkCommitSalt hq1 hq2 {
        activated := by rw [hactivated]; decide
        opened := hclosed
        covered := by rw [hnotice]; decide
        fresh := .inl (congrArg Commit.committer (noticed_commits _))
        slot := hslot
        seq := by rw [hseq]; decide
        payTo := by decide
        sender := by decide
        sameSender := rfl
        young := by decide
        late := by decide }
    rw [hseq] at hreveal
    exact ⟨ev, mid, hcommit, hreveal⟩

end EscrowEvidence
