import Chit402.MerkleConsistencyProofs
import Chit402.SolidityProofs

/-! # The escrow's inclusion check

    `EscrowMerkle.verifyInclusion`: the RFC 9162 inclusion loop over
    `uint256` copies of a `uint64` index and size, with a cap of 64 steps.
    On a collision-free tree it accepts exactly the leaf at the index with
    exactly its path. -/

namespace EscrowMerkle

open MerkleLevel MerkleWalk MerkleConsistency Solidity

/-- Longest proof accepted.  A tree of 2^64 leaves needs 64 steps. -/
def maxProofSteps : Nat := 64

variable (sha256 : List UInt8 → Word)

def nodeHash (left right : Word) : Word := sha256 (0x01 :: (wordBytes left ++ wordBytes right))

/-- RFC 9162 hash of a list of leaf hashes. -/
def treeHash (xs : List Word) : Word := mth (nodeHash sha256) (sha256 []) xs

def verifyInclusion (leaf : Word) (index size : UInt64) (root : Word) (proof : List Word) : Bool :=
  if size ≤ index then false
  else if maxProofSteps < proof.length then false
  else
    match proofLoop (includeLeft (nodeHash sha256)) (includeRight (nodeHash sha256)) index.toNat
        (size.toNat - 1) leaf proof with
    | none => false
    | some (sn, h) => sn = 0 && h = root

theorem verifyInclusion_iff (leaf : Word) (index size : UInt64) (root : Word) (proof : List Word) :
    verifyInclusion sha256 leaf index size root proof = true ↔ index < size ∧ proof.length ≤ maxProofSteps
        ∧ climb (includeLeft (nodeHash sha256)) (includeRight (nodeHash sha256)) index.toNat
            (size.toNat - 1) leaf proof = some root := by
  rw [verifyInclusion]
  by_cases hi : size ≤ index
  · rw [if_pos hi]
    simp only [Bool.false_eq_true, false_iff, not_and]
    exact fun hlt => absurd hi (UInt64.not_le.mpr hlt)
  · have hlt : index.toNat < size.toNat := UInt64.lt_iff_toNat_lt.mp (UInt64.not_le.mp hi)
    rw [if_neg hi]
    by_cases hlong : maxProofSteps < proof.length
    · rw [if_pos hlong]
      simp only [Bool.false_eq_true, false_iff, not_and]
      exact fun _ hle => absurd hle (Nat.not_le.mpr hlong)
    · rw [if_neg hlong, ← proofLoop_iff_climb proof (by omega)]
      have hlt' := UInt64.not_le.mp hi
      split
      · rename_i h
        rw [h]
        simp
      · rename_i sn r h
        rw [h, Option.some.injEq, Prod.mk.injEq, Bool.and_eq_true, decide_eq_true_iff, decide_eq_true_iff]
        exact ⟨fun hr => ⟨hlt', Nat.not_lt.mp hlong, hr⟩, fun hr => hr.2.2⟩

variable {sha256}

variable {xs : List Word} {index size : UInt64} {leaf : Word}

/-- **SOUNDNESS**: an accepted leaf is the leaf at the index. -/
theorem verifyInclusion_sound (hcf : CollisionFree (nodeHash sha256) xs) {proof : List Word}
    (hlen : xs.length = size.toNat) (h : verifyInclusion sha256 leaf index size (treeHash sha256 xs) proof = true) :
    xs[index.toNat]? = some leaf := by
  obtain ⟨hlt, -, hwalk⟩ := (verifyInclusion_iff sha256 ..).mp h
  rw [UInt64.lt_iff_toNat_lt] at hlt
  have hx : xs[index.toNat]? = some xs[index.toNat] := List.getElem?_eq_getElem (by omega)
  rw [← hlen, treeHash, climb_inclusion_iff _ hcf hx] at hwalk
  rw [hx, hwalk.1]

/-- **COMPLETENESS**: the path of the leaf at the index is accepted, whatever the hash. -/
theorem verifyInclusion_complete (hlen : xs.length = size.toNat) (hx : xs[index.toNat]? = some leaf) :
    verifyInclusion sha256 leaf index size (treeHash sha256 xs)
      (path (nodeHash sha256) (sha256 []) index.toNat xs) = true := by
  have hi : index.toNat < xs.length := (List.getElem?_eq_some_iff.mp hx).1
  have hsize := size.toNat_lt
  rw [verifyInclusion_iff]
  refine ⟨UInt64.lt_iff_toNat_lt.mpr (by omega), length_path_le _ _ _ 64 xs hi (by omega), ?_⟩
  rw [← hlen]
  exact climb_path hx

end EscrowMerkle
