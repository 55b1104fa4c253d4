import Chit402.Cs2MerkleProofs
import Chit402.Rfc9162ContractProofs

/-! # The two consistency verifiers agree

    `Rfc9162.verifyConsistency` on chain and `verifyConsistency` of
    `cs2-core` give one verdict, with one reason, on every pair of sizes
    `cs2-core` can read and every proof it will read.  A longer proof is
    refused on both sides. -/

namespace ConsistencyAgreement

open MerkleLevel MerkleWalk MerkleConsistency HexDigest ExceptFlow
open Cs2Merkle (Reason wire maxTreeSize maxProofHashes hashPair verifyRead rebuildRoots)
open Rfc9162Contract (Code node loopCode)

variable (sha256 : List UInt8 → Digest)

/-- What `cs2-core` returns where the contract returns a code. -/
def result : Code → Except Reason Unit
  | .ok => .ok ()
  | .mGtN => .error .mGtN
  | .proofNotEmpty => .error .proofNotEmpty
  | .rootMismatch => .error .rootMismatch
  | .proofTooShort => .error .proofTooShort
  | .proofTooLong => .error .proofTooLong

variable {m n : Nat}

theorem verifyConsistency_wire (hm : m ≤ maxTreeSize) (hn : n ≤ maxTreeSize) (oldRoot newRoot : Digest)
    (proof : List Digest) : Cs2Merkle.verifyConsistency sha256 (.int m) (.int n) (wire oldRoot) (wire newRoot)
        (.arr (proof.map wire)) = if maxProofHashes < proof.length then .error .proofTooLong
        else verifyRead sha256 m n oldRoot newRoot proof := by
  rw [Cs2Merkle.verifyConsistency, Cs2Merkle.checkSize_nat hm, ok_bind,
    Cs2Merkle.checkSize_nat hn, ok_bind, Cs2Merkle.bind_wire, Cs2Merkle.bind_wire, Cs2Merkle.parseProof_wire]
  split
  · rfl
  · rfl

/-- The two-root loops end in the same code. -/
theorem rebuildRoots_eq (m n : Nat) (oldRoot newRoot : Digest) (proof : List Digest) :
    rebuildRoots sha256 m n oldRoot newRoot proof = result (loopCode sha256 m n oldRoot newRoot proof) := by
  rw [rebuildRoots, loopCode, show hashPair sha256 = node sha256 from rfl]
  cases seedNodes m oldRoot proof with
  | nil => rfl
  | cons seed rest =>
    simp only
    cases proofLoop (bothLeft (node sha256)) (bothRight (node sha256))
        (dropOdd (m - 1) (n - 1)).1 (dropOdd (m - 1) (n - 1)).2 (seed, seed) rest with
    | none => rfl
    | some r =>
      simp only
      split
      · rfl
      · split
        · rfl
        · split
          · rfl
          · rfl

/-- One verdict on everything both sides read. -/
theorem verifyRead_eq (hempty : sha256 [] = Rfc9162Contract.emptyRoot) (m n : UInt64)
    (oldRoot newRoot : Digest) (proof : List Digest) :
    ∃ c, Rfc9162Contract.verifyConsistency sha256 m n oldRoot newRoot proof = .ok c
      ∧ verifyRead sha256 m.toNat n.toNat oldRoot newRoot proof = result c := by
  have hroot : Cs2Merkle.emptyRoot sha256 = Rfc9162Contract.emptyRoot := hempty
  by_cases hgt : n < m
  · refine ⟨.mGtN, if_pos hgt, ?_⟩
    rw [verifyRead, if_pos (UInt64.lt_iff_toNat_lt.mp hgt)]
    rfl
  · have hle : ¬ n.toNat < m.toNat := fun h => hgt (UInt64.lt_iff_toNat_lt.mpr h)
    by_cases h0 : m = 0
    · subst h0
      rw [Rfc9162Contract.verifyConsistency_genesis, verifyRead, if_neg hle,
        if_pos (show UInt64.toNat 0 = 0 from rfl), hroot]
      have hn0 := Rfc9162Contract.toNat_eq_zero_iff n
      by_cases hp : proof.length ≠ 0
      · rw [if_pos hp, if_pos hp]
        exact ⟨_, rfl, rfl⟩
      · rw [if_neg hp, if_neg hp]
        by_cases ho : oldRoot ≠ Rfc9162Contract.emptyRoot
        · rw [if_pos ho, if_pos ho]
          exact ⟨_, rfl, rfl⟩
        · rw [if_neg ho, if_neg ho]
          by_cases hn : n = 0 ∧ newRoot ≠ Rfc9162Contract.emptyRoot
          · rw [if_pos hn, if_pos (by rwa [hn0])]
            exact ⟨_, rfl, rfl⟩
          · rw [if_neg hn, if_neg (by rwa [hn0])]
            exact ⟨_, rfl, rfl⟩
    · have hm0 : m.toNat ≠ 0 := fun h => h0 ((Rfc9162Contract.toNat_eq_zero_iff m).mp h)
      by_cases heq : m = n
      · subst heq
        rw [Rfc9162Contract.verifyConsistency, if_neg hgt, if_neg h0, if_pos rfl, verifyRead,
          if_neg hle, if_neg hm0, if_pos rfl]
        by_cases hp : proof.length ≠ 0
        · rw [if_pos hp, if_pos hp]
          exact ⟨_, rfl, rfl⟩
        · rw [if_neg hp, if_neg hp]
          by_cases ho : oldRoot ≠ newRoot
          · rw [if_pos ho, if_pos ho]
            exact ⟨_, rfl, rfl⟩
          · rw [if_neg ho, if_neg ho]
            exact ⟨_, rfl, rfl⟩
      · have hne : m.toNat ≠ n.toNat := fun h => heq (UInt64.toNat_inj.mp h)
        by_cases hp : proof = []
        · refine ⟨.proofTooShort, ?_, ?_⟩
          · rw [Rfc9162Contract.verifyConsistency, if_neg hgt, if_neg h0, if_neg heq,
              if_pos (List.length_eq_zero_iff.mpr hp)]
          · rw [verifyRead, if_neg hle, if_neg hm0, if_neg hne, if_pos (List.length_eq_zero_iff.mpr hp)]
            rfl
        · refine ⟨_, Rfc9162Contract.verifyConsistency_proper sha256 h0
            (UInt64.lt_of_le_of_ne (UInt64.not_lt.mp hgt) heq) oldRoot newRoot hp, ?_⟩
          rw [verifyRead, if_neg hle, if_neg hm0, if_neg hne,
            if_neg (by rwa [List.length_eq_zero_iff]), rebuildRoots_eq]

/-- An accepted pair of sizes has a proof shorter than the limit. -/
theorem verifyRead_length_le (hn : n ≤ maxTreeSize) {oldRoot newRoot : Digest} {proof : List Digest}
    (h : verifyRead sha256 m n oldRoot newRoot proof = .ok ()) : proof.length ≤ maxProofHashes := by
  have hnil : proof = [] → proof.length ≤ maxProofHashes := by
    rintro rfl
    exact Nat.zero_le _
  by_cases hgt : n < m
  · rw [verifyRead, if_pos hgt] at h
    cases h
  · by_cases h0 : m = 0
    · subst h0
      exact hnil ((Cs2Merkle.verifyRead_genesis_iff sha256 ..).mp h).1
    · by_cases heq : m = n
      · subst heq
        exact hnil ((Cs2Merkle.verifyRead_same_iff sha256 (by omega) ..).mp h).1
      · have hwalk := ((Cs2Merkle.verifyRead_proper_iff sha256 (by omega) (by omega) ..).mp h).2
        exact Nat.le_trans (Cs2Merkle.consistencyWalk_length_le (t := 53) (by omega)
          (Nat.le_trans hn (by decide)) hwalk) (by decide)

/-- **THE VERIFIERS AGREE** on every input both can read, neither accepts a
    proof of more than 64 hashes, and the contract never reverts. -/
theorem verifiers_agree (hempty : sha256 [] = Rfc9162Contract.emptyRoot) :
    (∀ m n : UInt64, m.toNat ≤ maxTreeSize → n.toNat ≤ maxTreeSize →
      ∀ (oldRoot newRoot : Digest) (proof : List Digest), proof.length ≤ 64 →
      ∃ c, Rfc9162Contract.verifyConsistency sha256 m n oldRoot newRoot proof = .ok c
        ∧ Cs2Merkle.verifyConsistency sha256 (.int m.toNat) (.int n.toNat) (wire oldRoot)
            (wire newRoot) (.arr (proof.map wire)) = result c)
    ∧ (∀ m n : UInt64, m.toNat ≤ maxTreeSize → n.toNat ≤ maxTreeSize →
      ∀ (oldRoot newRoot : Digest) (proof : List Digest), 64 < proof.length →
      Rfc9162Contract.verifyConsistency sha256 m n oldRoot newRoot proof ≠ .ok .ok
        ∧ Cs2Merkle.verifyConsistency sha256 (.int m.toNat) (.int n.toNat) (wire oldRoot)
            (wire newRoot) (.arr (proof.map wire)) ≠ .ok ())
    ∧ ∀ (m n : UInt64) (oldRoot newRoot : Digest) (proof : List Digest),
      ∃ c, Rfc9162Contract.verifyConsistency sha256 m n oldRoot newRoot proof = .ok c := by
  refine ⟨?_, ?_, Rfc9162Contract.verifyConsistency_total sha256⟩
  · intro m n hm hn oldRoot newRoot proof hlen
    obtain ⟨c, hc, hread⟩ := verifyRead_eq sha256 hempty m n oldRoot newRoot proof
    refine ⟨c, hc, ?_⟩
    rw [verifyConsistency_wire sha256 hm hn,
      if_neg (show ¬ maxProofHashes < proof.length from Nat.not_lt.mpr hlen), hread]
  · intro m n hm hn oldRoot newRoot proof hlen
    obtain ⟨c, hc, hread⟩ := verifyRead_eq sha256 hempty m n oldRoot newRoot proof
    refine ⟨fun hok => ?_, fun hok => ?_⟩
    · obtain rfl := Except.ok.inj (hc.symm.trans hok)
      exact absurd (verifyRead_length_le sha256 hn hread) (Nat.not_le.mpr hlen)
    · rw [verifyConsistency_wire sha256 hm hn, if_pos (show maxProofHashes < proof.length from hlen)] at hok
      exact nomatch hok

theorem verifiers_agree_sample : ∃ c, Rfc9162Contract.verifyConsistency Cs2Merkle.sampleSha256 1 2 Cs2Merkle.sampleLeaf0
        Cs2Merkle.sampleRoot [Cs2Merkle.sampleLeaf1] = .ok c
      ∧ Cs2Merkle.verifyConsistency Cs2Merkle.sampleSha256 (.int (1 : UInt64).toNat)
          (.int (2 : UInt64).toNat) (wire Cs2Merkle.sampleLeaf0) (wire Cs2Merkle.sampleRoot)
          (.arr ([Cs2Merkle.sampleLeaf1].map wire)) = result c :=
  (verifiers_agree Cs2Merkle.sampleSha256 (by decide)).1 1 2 (by decide) (by decide) _ _ _
    (by decide)

end ConsistencyAgreement
