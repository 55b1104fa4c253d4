import Chit402.Rfc9162ContractProofs

/-! # The hourly anchor contract

    `ChitAnchor` keeps one head and accepts a next one from the checkpoint
    address when it is one epoch on, of a later finished hour, larger, and
    consistent with the head it replaces.

    The contract checks one consistency step at a time; over a whole run the
    heads it accepted are the prefix roots of one append-only log
    (`anchored_append_only`). -/

namespace ChitAnchor

open MerkleLevel HexDigest ExceptFlow Solidity Rfc9162Contract

structure Head where
  epoch : UInt64
  hourStart : UInt64
  size : UInt64
  root : Digest
  stateRoot : Digest
deriving DecidableEq

structure State where
  checkpoint : Address
  checkpointVersion : UInt64
  domain : Digest
  head : Head
deriving DecidableEq

inductive Revert where
  | notCheckpoint | badDomain | badEpoch | badHour | hourNotIncreasing | hourNotFinished
  | sizeNotIncreasing | badConsistency | zeroCheckpoint | sameCheckpoint | badVersion
  | panic (p : Panic)
deriving DecidableEq

structure AnchorArgs where
  domain : Digest
  epoch : UInt64
  hourStart : UInt64
  size : UInt64
  root : Digest
  stateRoot : Digest
  consistencyProof : List Digest

variable (sha256 : List UInt8 → Digest)

/-- The head before the first anchor; storage starts zeroed. -/
def genesis : Head where
  epoch := 0
  hourStart := 0
  size := 0
  root := emptyRoot
  stateRoot := ⟨List.replicate 32 0, length_zeros⟩

def deploy (chainid : UInt64) (self checkpoint : Address) : Except Revert State := do
  revertIf (checkpoint = 0) .zeroCheckpoint
  .ok {
    checkpoint := checkpoint
    checkpointVersion := 1
    domain := sha256 ("chit402-checkpoint-v1".toUTF8.toList ++ bigEndian 8 chainid.toNat
      ++ bigEndian 20 self.toNat)
    head := genesis }

def anchor (sender : Address) (timestamp : Nat) (a : AnchorArgs) (s : State) :
    Except Revert State := do
  revertIf (sender ≠ s.checkpoint) .notCheckpoint
  revertIf (a.domain ≠ s.domain) .badDomain
  let next ← (checkedAdd s.head.epoch 1).mapError Revert.panic
  revertIf (a.epoch ≠ next) .badEpoch
  revertIf (a.hourStart % 3600 ≠ 0) .badHour
  revertIf (a.hourStart ≤ s.head.hourStart) .hourNotIncreasing
  -- widened to `uint256` before the addition
  revertIf (timestamp < a.hourStart.toNat + 3600) .hourNotFinished
  revertIf (a.size ≤ s.head.size) .sizeNotIncreasing
  let code ← (verifyConsistency sha256 s.head.size a.size s.head.root a.root
    a.consistencyProof).mapError Revert.panic
  revertIf (code ≠ .ok) .badConsistency
  .ok { s with head := {
    epoch := a.epoch
    hourStart := a.hourStart
    size := a.size
    root := a.root
    stateRoot := a.stateRoot } }

def rotateCheckpointKey (sender newAddr : Address) (version : UInt64) (s : State) :
    Except Revert State := do
  revertIf (sender ≠ s.checkpoint) .notCheckpoint
  revertIf (newAddr = 0) .zeroCheckpoint
  revertIf (newAddr = s.checkpoint) .sameCheckpoint
  revertIf (version ≤ s.checkpointVersion) .badVersion
  .ok { s with checkpoint := newAddr, checkpointVersion := version }

/-! ## What a successful call did -/

/-- A head that may follow another on chain. -/
structure Follows (old new : Head) (timestamp : Nat) (proof : List Digest) : Prop where
  epoch : new.epoch.toNat = old.epoch.toNat + 1
  hourExact : new.hourStart.toNat % 3600 = 0
  hourLater : old.hourStart < new.hourStart
  hourFinished : new.hourStart.toNat + 3600 ≤ timestamp
  larger : old.size < new.size
  consistent : verifyConsistency sha256 old.size new.size old.root new.root proof = .ok .ok

variable {newAddr sender : Address} {a : AnchorArgs} {new : Head} {proof : List Digest} {timestamp : Nat}
  {s s' : State} {version : UInt64}

theorem anchor_ok (h : anchor sha256 sender timestamp a s = .ok s') :
    Follows sha256 s.head s'.head timestamp a.consistencyProof ∧ s' = { s with head := s'.head } := by
  rw [anchor, guarded_iff, guarded_iff, bind_iff] at h
  obtain ⟨-, -, next, hnext, h⟩ := h
  rw [mapError_ok_iff, checkedAdd_ok_iff] at hnext
  rw [guarded_iff, guarded_iff, guarded_iff, guarded_iff, guarded_iff, bind_iff] at h
  obtain ⟨hepoch, hhour, hlater, hfinished, hlarger, code, hcode, h⟩ := h
  rw [mapError_ok_iff] at hcode
  rw [guarded_iff] at h
  obtain ⟨hok, h⟩ := h
  obtain rfl := not_not.mp hok
  obtain rfl := not_not.mp hepoch
  cases h
  refine ⟨⟨hnext, ?_, UInt64.not_le.mp hlater, Nat.not_lt.mp hfinished,
    UInt64.not_le.mp hlarger, hcode⟩, rfl⟩
  have := congrArg UInt64.toNat (not_not.mp hhour)
  rwa [UInt64.toNat_mod] at this

theorem rotateCheckpointKey_ok (h : rotateCheckpointKey sender newAddr version s = .ok s') :
    s'.head = s.head ∧ s'.checkpointVersion = version ∧ s.checkpointVersion < version := by
  rw [rotateCheckpointKey, guarded_iff, guarded_iff, guarded_iff, guarded_iff] at h
  obtain ⟨-, -, -, hversion, h⟩ := h
  cases h
  exact ⟨rfl, rfl, UInt64.not_le.mp hversion⟩

/-! ## One log behind two heads -/

/-- Every tree with the new root has the old root on its prefix. -/
def Extends (old new : Head) : Prop :=
  ∀ xs : List Digest, xs.length = new.size.toNat → PrefixCollisionFree (node sha256) xs →
    mth (node sha256) emptyRoot xs = new.root →
    mth (node sha256) emptyRoot (xs.take old.size.toNat) = old.root

theorem Extends.refl (head : Head) : Extends sha256 head head := by
  intro xs hlen _ hroot
  rwa [← hlen, List.take_length]

variable {sha256}

theorem Extends.trans {a b c : Head} (hab : Extends sha256 a b) (hbc : Extends sha256 b c)
    (hle : a.size ≤ b.size) (hle' : b.size ≤ c.size) : Extends sha256 a c := by
  intro xs hlen hcf hroot
  rw [UInt64.le_iff_toNat_le] at hle hle'
  have := hab (xs.take b.size.toNat) (by rw [List.length_take]; omega)
    (hcf.take _) (hbc xs hlen hcf hroot)
  rwa [List.take_take, Nat.min_eq_left hle] at this

theorem Follows.extends {old : Head} (h : Follows sha256 old new timestamp proof) (h0 : old.size ≠ 0) :
    Extends sha256 old new := by
  intro xs hlen hcf hroot
  exact verifyConsistency_sound sha256 h0 h.larger h.consistent hcf.whole hlen hroot

/-! ## Runs -/

inductive Call where
  | anchor (a : AnchorArgs)
  | rotateCheckpointKey (newAddr : Address) (version : UInt64)

/-- A call with its sender and block time. -/
structure Tx where
  sender : Address
  timestamp : Nat
  call : Call

/-- The contract and the events it emitted: `Anchored` with its block time, and the
    versions of `CheckpointKeyRotated`. -/
structure World where
  contract : State
  anchored : List (Head × Nat)
  versions : List UInt64

variable (sha256)

/-- A call that reverts changes nothing. -/
def step (w : World) (t : Tx) : World :=
  match t.call with
  | .anchor a =>
    match anchor sha256 t.sender t.timestamp a w.contract with
    | .error _ => w
    | .ok s => { w with contract := s, anchored := w.anchored ++ [(s.head, t.timestamp)] }
  | .rotateCheckpointKey newAddr version =>
    match rotateCheckpointKey t.sender newAddr version w.contract with
    | .error _ => w
    | .ok s => { w with contract := s, versions := w.versions ++ [version] }

/-- The run of a list of calls from a deployed contract. -/
def run (s : State) (txs : List Tx) : World :=
  txs.foldl (step sha256) { contract := s, anchored := [], versions := [1] }

/-- An earlier anchored head against a later one. -/
def Before (a b : Head × Nat) : Prop :=
  a.1.size < b.1.size ∧ a.1.hourStart < b.1.hourStart ∧ Extends sha256 a.1 b.1

/-- The invariant of a run. -/
structure LogInv (w : World) : Prop where
  epoch : w.contract.head.epoch.toNat = w.anchored.length
  epochs : w.anchored.map (fun a => a.1.epoch.toNat) = List.range' 1 w.anchored.length
  finished : ∀ a ∈ w.anchored, a.1.hourStart.toNat % 3600 = 0 ∧ a.1.hourStart.toNat + 3600 ≤ a.2
  behind : ∀ a ∈ w.anchored, a.1.size ≤ w.contract.head.size
    ∧ a.1.hourStart ≤ w.contract.head.hourStart ∧ Extends sha256 a.1 w.contract.head
    ∧ w.contract.head.size ≠ 0
  ordered : w.anchored.Pairwise (Before sha256)
  version : w.versions.getLast? = some w.contract.checkpointVersion
  versions : w.versions.Pairwise (· < ·)

theorem logInv_deploy {chainid : UInt64} {self checkpoint : Address}
    (h : deploy sha256 chainid self checkpoint = .ok s) :
    LogInv sha256 { contract := s, anchored := [], versions := [1] } := by
  rw [deploy, guarded_iff] at h
  cases h.2
  exact {
    epoch := rfl
    epochs := rfl
    finished := fun a ha => absurd ha List.not_mem_nil
    behind := fun a ha => absurd ha List.not_mem_nil
    ordered := List.Pairwise.nil
    version := rfl
    versions := List.pairwise_singleton _ _ }

variable {sha256}

variable {w : World}

theorem LogInv.before_new (hw : LogInv sha256 w) (hf : Follows sha256 w.contract.head new timestamp proof)
    {a : Head × Nat} (ha : a ∈ w.anchored) : Before sha256 a (new, timestamp) := by
  obtain ⟨hsize, hhour, hext, hpos⟩ := hw.behind a ha
  exact ⟨UInt64.lt_of_le_of_lt hsize hf.larger, UInt64.lt_of_le_of_lt hhour hf.hourLater,
    hext.trans (hf.extends hpos) hsize (UInt64.le_of_lt hf.larger)⟩

theorem LogInv.anchor (hw : LogInv sha256 w) (h : ChitAnchor.anchor sha256 sender timestamp a w.contract = .ok s) :
    LogInv sha256 { w with contract := s, anchored := w.anchored ++ [(s.head, timestamp)] } := by
  obtain ⟨hf, hs⟩ := anchor_ok sha256 h
  have hversion : s.checkpointVersion = w.contract.checkpointVersion := by rw [hs]
  have hpos : s.head.size ≠ 0 := by
    intro h0
    have := hf.larger
    rw [h0] at this
    exact absurd this (UInt64.not_lt_zero)
  refine ⟨?_, ?_, ?_, ?_, ?_, ?_, hw.versions⟩
  · show s.head.epoch.toNat = (w.anchored ++ [(s.head, timestamp)]).length
    rw [hf.epoch, hw.epoch, List.length_append]
    rfl
  · show (w.anchored ++ [(s.head, timestamp)]).map _ = _
    rw [List.map_append, hw.epochs, List.length_append, List.length_singleton,
      List.range'_concat, List.map_singleton, hf.epoch, hw.epoch, Nat.one_mul, Nat.add_comm 1]
  · intro b hb
    rcases List.mem_append.mp hb with hb | hb
    · exact hw.finished b hb
    · obtain rfl := List.mem_singleton.mp hb
      exact ⟨hf.hourExact, hf.hourFinished⟩
  · intro b hb
    rcases List.mem_append.mp hb with hb | hb
    · obtain ⟨hsize, hhour, hext⟩ := hw.before_new hf hb
      exact ⟨UInt64.le_of_lt hsize, UInt64.le_of_lt hhour, hext, hpos⟩
    · obtain rfl := List.mem_singleton.mp hb
      exact ⟨UInt64.le_refl _, UInt64.le_refl _, Extends.refl sha256 _, hpos⟩
  · refine List.pairwise_append.mpr ⟨hw.ordered, List.pairwise_singleton _ _, fun b hb c hc => ?_⟩
    obtain rfl := List.mem_singleton.mp hc
    exact hw.before_new hf hb
  · show w.versions.getLast? = some s.checkpointVersion
    rw [hversion, hw.version]

theorem LogInv.rotate (hw : LogInv sha256 w)
    (h : ChitAnchor.rotateCheckpointKey sender newAddr version w.contract = .ok s) :
    LogInv sha256 { w with contract := s, versions := w.versions ++ [version] } := by
  obtain ⟨hhead, hversion, hlt⟩ := rotateCheckpointKey_ok h
  refine ⟨?_, hw.epochs, hw.finished, ?_, hw.ordered, ?_, ?_⟩
  · show s.head.epoch.toNat = w.anchored.length
    rw [hhead, hw.epoch]
  · show ∀ a ∈ w.anchored, a.1.size ≤ s.head.size ∧ a.1.hourStart ≤ s.head.hourStart
      ∧ Extends sha256 a.1 s.head ∧ s.head.size ≠ 0
    rw [hhead]
    exact hw.behind
  · show (w.versions ++ [version]).getLast? = some s.checkpointVersion
    rw [List.getLast?_append, hversion]
    rfl
  · -- the last version is the largest so far
    refine List.pairwise_append.mpr ⟨hw.versions, List.pairwise_singleton _ _, fun b hb c hc => ?_⟩
    obtain rfl := List.mem_singleton.mp hc
    obtain ⟨init, hinit⟩ := List.getLast?_eq_some_iff.mp hw.version
    rw [hinit] at hb
    rcases List.mem_append.mp hb with hb | hb
    · have hp := hw.versions
      rw [hinit] at hp
      have := (List.pairwise_append.mp hp).2.2 b hb _ (List.mem_singleton.mpr rfl)
      exact UInt64.lt_trans this hlt
    · obtain rfl := List.mem_singleton.mp hb
      exact hlt

theorem LogInv.step (hw : LogInv sha256 w) (t : Tx) : LogInv sha256 (ChitAnchor.step sha256 w t) := by
  rw [ChitAnchor.step]
  cases t.call with
  | anchor a =>
    simp only
    split
    · exact hw
    · rename_i s h
      exact hw.anchor h
  | rotateCheckpointKey newAddr version =>
    simp only
    split
    · exact hw
    · rename_i s h
      exact hw.rotate h

theorem logInv_run (h : LogInv sha256 { contract := s, anchored := [], versions := [1] }) (txs : List Tx) :
    LogInv sha256 (run sha256 s txs) :=
  List.foldlRecOn txs (ChitAnchor.step sha256) h fun _ hw t _ => hw.step t

/-! ## The append-only log -/

variable (sha256)

/-- RFC 9162 leaf hashes of a leaf sequence. -/
def leaves (D : List (List UInt8)) : List Digest := D.map fun d => sha256 (0x00 :: d)

/-- RFC 9162 root of a leaf sequence. -/
def root (D : List (List UInt8)) : Digest := mth (node sha256) emptyRoot (leaves sha256 D)

/-- **ONE LOG**: in every run the accepted heads number 1, 2, …, grow in size and
    hour, close only finished hours, and any leaf sequence behind a head has the
    earlier roots on its prefixes.  A rotation keeps the head and raises the version. -/
theorem anchored_append_only {chainid : UInt64} {self checkpoint : Address} {s : State}
    (hs : deploy sha256 chainid self checkpoint = .ok s) (txs : List Tx) :
    (run sha256 s txs).anchored.map (fun a => a.1.epoch.toNat) = List.range' 1 (run sha256 s txs).anchored.length
    ∧ (∀ a ∈ (run sha256 s txs).anchored, a.1.hourStart.toNat % 3600 = 0 ∧ a.1.hourStart.toNat + 3600 ≤ a.2)
    ∧ (run sha256 s txs).anchored.Pairwise (fun a b => a.1.size < b.1.size ∧ a.1.hourStart < b.1.hourStart
        ∧ ∀ D : List (List UInt8), D.length = b.1.size.toNat →
          PrefixCollisionFree (node sha256) (leaves sha256 D) → root sha256 D = b.1.root →
          root sha256 (D.take a.1.size.toNat) = a.1.root) ∧ (run sha256 s txs).versions.Pairwise (· < ·)
    ∧ ∀ sender newAddr version s', rotateCheckpointKey sender newAddr version (run sha256 s txs).contract = .ok s' →
        s'.head = (run sha256 s txs).contract.head
          ∧ (run sha256 s txs).contract.checkpointVersion < s'.checkpointVersion := by
  have hinv := logInv_run (logInv_deploy sha256 hs) txs
  refine ⟨hinv.epochs, hinv.finished, ?_, hinv.versions, ?_⟩
  · refine hinv.ordered.imp fun {a b} hab => ⟨hab.1, hab.2.1, fun D hlen hcf hroot => ?_⟩
    have := hab.2.2 (leaves sha256 D) (by rw [leaves, List.length_map, hlen]) hcf hroot
    rwa [leaves, ← List.map_take] at this
  · intro sender newAddr version s' h
    obtain ⟨hhead, hversion, hlt⟩ := rotateCheckpointKey_ok h
    exact ⟨hhead, by rwa [hversion]⟩

/-! ## Two hours and a new key -/

/-- The leaf data of the sample's log. -/
def sampleLog : List (List UInt8) := [[0x00], [0x01], [0x02], [0x03]]

def sampleLeaf0 : Digest := .ofWord 0x96a296d224f285c67bee93c30f8a309157f0daa35dc5b87e410b78630a09cfc7

def sampleLeaf1 : Digest := .ofWord 0xb413f47d13ee2fe6c845b2ee141af81de858df4ec549a58b7970bb96645bc8d2

def sampleLeaf2 : Digest := .ofWord 0xfcf0a6c700dd13e274b6fba8deea8dd9b26e4eedde3495717cac8408c9c5177f

def sampleLeaf3 : Digest := .ofWord 0x583c7dfb7b3055d99465544032a571e10a134b1b6f769422bbb71fd7fa167a5d

def sampleLeft : Digest := .ofWord 0xa20bf9a7cc2dc8a08f5f415a71b19f6ac427bab54d24eec868b5d3103449953a

def sampleRight : Digest := .ofWord 0x52c56b473e5246933e7852989cd9feba3b38f078742b93afff1e65ed46797825

def sampleRoot3 : Digest := .ofWord 0x3b6cccd7e3e023ff393006f030315ee7ad9eb111b022b41fba7e5b7a3973f688

def sampleRoot4 : Digest := .ofWord 0x9bcd51240af4005168f033121ba85be5a6ed4f0e6a5fac262066729b8fbfdecb

def sampleDomain : Digest := .ofWord 0x6d03a0b7bb2820b8732d82182ff5293e3a44c1d0eccd24d6acffc76822b014ea

/-- SHA-256 of the checkpoint domain, of the leaves, and of the nodes over three and four of them. -/
def sampleTable : List (List UInt8 × Digest) := [
  ("chit402-checkpoint-v1".toUTF8.toList ++ bigEndian 8 84532 ++ bigEndian 20 0xc402, sampleDomain),
  ([0x00, 0x00], sampleLeaf0), ([0x00, 0x01], sampleLeaf1), ([0x00, 0x02], sampleLeaf2), ([0x00, 0x03], sampleLeaf3),
  (0x01 :: (sampleLeaf0.bytes ++ sampleLeaf1.bytes), sampleLeft),
  (0x01 :: (sampleLeaf2.bytes ++ sampleLeaf3.bytes), sampleRight),
  (0x01 :: (sampleLeft.bytes ++ sampleLeaf2.bytes), sampleRoot3),
  (0x01 :: (sampleLeft.bytes ++ sampleRight.bytes), sampleRoot4)]

def sampleSha256 (message : List UInt8) : Digest := (sampleTable.lookup message).getD emptyRoot

/-- No two rows share a digest, and the log's leaves and two of its nodes are rows. -/
theorem sampleTable_evaluated : (emptyRoot :: sampleTable.map Prod.snd).Nodup
    ∧ leaves sampleSha256 sampleLog = [sampleLeaf0, sampleLeaf1, sampleLeaf2, sampleLeaf3]
    ∧ node sampleSha256 sampleLeaf0 sampleLeaf1 = sampleLeft ∧ node sampleSha256 sampleLeaf2 sampleLeaf3 = sampleRight
    ∧ root sampleSha256 sampleLog = sampleRoot4 := by decide +kernel

theorem sample_tells_apart {a b : Digest} (i : ℕ)
    (h : (sampleTable.map Prod.fst)[i]? = some (0x01 :: (a.bytes ++ b.bytes))) (c d : Digest)
    (heq : node sampleSha256 c d = node sampleSha256 a b) : c = a ∧ d = b := by
  have hbytes := (List.cons.inj (lookup_getD_inj sampleTable_evaluated.1 (List.mem_of_getElem? h) heq)).2
  obtain ⟨hc, hd⟩ := List.append_inj hbytes (by rw [c.size, a.size])
  exact ⟨Digest.ext hc, Digest.ext hd⟩

/-- The four interior nodes of the log and of its prefixes are rows of the table. -/
theorem sampleLog_collisionFree : PrefixCollisionFree (node sampleSha256) (leaves sampleSha256 sampleLog) := by
  obtain ⟨-, hleaves, hleft, hright, -⟩ := sampleTable_evaluated
  rw [hleaves]
  intro n
  rcases n with _ | _ | _ | _ | n
  · exact .of_short (Nat.zero_le _)
  · exact .of_short Nat.le.refl
  · exact .of_pair (sample_tells_apart 5 rfl)
  · refine .of_level ?_ ?_
    · rintro (_ | j) a b ha hb
      · cases ha
        cases hb
        exact sample_tells_apart 5 rfl
      · simp [Nat.mul_add] at hb
    · simp only [List.take, pairUp, hleft]
      exact .of_pair (sample_tells_apart 7 rfl)
  · rw [List.take_of_length_le (Nat.le_add_left 4 n)]
    refine .of_level ?_ ?_
    · rintro (_ | _ | j) a b ha hb
      · cases ha
        cases hb
        exact sample_tells_apart 5 rfl
      · cases ha
        cases hb
        exact sample_tells_apart 6 rfl
      · simp [Nat.mul_add] at hb
    · simp only [pairUp, hleft, hright]
      exact .of_pair (sample_tells_apart 8 rfl)

/-- The head over three receipts, of the hour from 3600. -/
def firstHead : Head := ⟨1, 3600, 3, sampleRoot3, emptyRoot⟩

/-- The head over all four, of the hour after. -/
def secondHead : Head := ⟨2, 7200, 4, sampleRoot4, sampleRoot3⟩

def anchorOf (head : Head) (consistencyProof : List Digest) : Call :=
  .anchor ⟨sampleDomain, head.epoch, head.hourStart, head.size, head.root, head.stateRoot, consistencyProof⟩

/-- Each head as its hour ends, and a new key between; the old key's try and a head
    without a proof revert. -/
def sampleTxs : List Tx := [⟨7, 7200, anchorOf firstHead []⟩, ⟨7, 8000, .rotateCheckpointKey 8 2⟩,
  ⟨7, 10800, anchorOf secondHead [sampleLeaf2, sampleLeaf3, sampleLeft]⟩, ⟨8, 10800, anchorOf secondHead []⟩,
  ⟨8, 10800, anchorOf secondHead [sampleLeaf2, sampleLeaf3, sampleLeft]⟩]

def sampleState : State := ⟨7, 1, sampleDomain, genesis⟩

theorem sampleTxs_evaluated : deploy sampleSha256 84532 0xc402 7 = .ok sampleState
    ∧ (run sampleSha256 sampleState sampleTxs).anchored = [(firstHead, 7200), (secondHead, 10800)]
    ∧ (run sampleSha256 sampleState sampleTxs).versions = [1, 2]
    ∧ (run sampleSha256 sampleState sampleTxs).contract.checkpointVersion = 2
    ∧ rotateCheckpointKey 8 9 3 (run sampleSha256 sampleState sampleTxs).contract
      = .ok ⟨9, 3, sampleDomain, secondHead⟩ := by decide +kernel

theorem anchored_append_only_sample :
    (run sampleSha256 sampleState sampleTxs).anchored = [(firstHead, 7200), (secondHead, 10800)]
    ∧ firstHead.epoch.toNat = 1 ∧ secondHead.epoch.toNat = 2 ∧ secondHead.hourStart.toNat + 3600 ≤ 10800
    ∧ firstHead.size < secondHead.size ∧ firstHead.hourStart < secondHead.hourStart
    ∧ root sampleSha256 sampleLog = secondHead.root ∧ root sampleSha256 (sampleLog.take 3) = firstHead.root
    ∧ (run sampleSha256 sampleState sampleTxs).versions = [1, 2] ∧ [(1 : UInt64), 2].Pairwise (· < ·)
    ∧ ∃ s', rotateCheckpointKey 8 9 3 (run sampleSha256 sampleState sampleTxs).contract = .ok s'
      ∧ s'.head = (run sampleSha256 sampleState sampleTxs).contract.head ∧ 2 < s'.checkpointVersion := by
  obtain ⟨hdeploy, hanchored, hsampled, hcurrent, hkey⟩ := sampleTxs_evaluated
  obtain ⟨hepochs, hhours, hlog, hversions, hrotate⟩ := anchored_append_only sampleSha256 hdeploy sampleTxs
  rw [hanchored] at hepochs hhours hlog
  rw [hsampled] at hversions
  have hroot : root sampleSha256 sampleLog = secondHead.root := sampleTable_evaluated.2.2.2.2
  obtain ⟨hsize, hhour, hprefix⟩ := (List.pairwise_cons.mp hlog).1 _ List.mem_cons_self
  obtain ⟨hfirst, hsecond⟩ := List.cons.inj hepochs
  obtain ⟨hhead, hversion⟩ := hrotate _ _ _ _ hkey
  rw [hcurrent] at hversion
  exact ⟨hanchored, hfirst, (List.cons.inj hsecond).1, (hhours _ (List.mem_cons_of_mem _ List.mem_cons_self)).2,
    hsize, hhour, hroot, hprefix sampleLog rfl sampleLog_collisionFree hroot, hsampled, hversions, _, hkey, hhead,
    hversion⟩

end ChitAnchor
