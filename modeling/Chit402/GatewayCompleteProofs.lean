import Chit402.GatewayConsistencyProofs

/-! # The gateway's consistency prover

    `consistencyProof` walks down the power-of-two splits and pushes the root
    of every subtree that the end of the old tree does not cut.  The check
    walks the same splits, so it takes the pushed roots in the order they
    were pushed, and reassembles both trees from them. -/

namespace GatewayComplete

open AnchorLeaf GatewayConsistency HexDigest InclusionAgreement MerkleLevel

variable (sha256 : Bytes → Digest)

/-! ## The prover -/

/-- What `prove` pushes for the leaves from `start` up to `stop`. -/
def prove (leaves : List Bytes) (start stop oldEnd : ℕ) : List String :=
  let size := stop - start
  if size = 0 then []
  else if stop ≤ oldEnd then [hex (rootIn sha256 leaves start stop)]
  else if oldEnd ≤ start then [hex (rootIn sha256 leaves start stop)]
  else
    let k := largestPowerOfTwoLessThan size
    prove leaves start (start + k) oldEnd ++ prove leaves (start + k) stop oldEnd
termination_by stop - start
decreasing_by
  · rw [largestPowerOfTwoLessThan_eq]
    have := split_lt (n := stop - start) (by omega)
    omega
  · rw [largestPowerOfTwoLessThan_eq]
    have := split_pos (stop - start)
    omega

def consistencyProof (leaves : List Bytes) (m n : ℤ) : Except String (List String) :=
  if m < 1 ∨ n < m ∨ (leaves.length : ℤ) < n then .error "bad_tree_size"
  else if m = n then .ok []
  else .ok (prove sha256 leaves 0 n.toNat m.toNat)

variable {sha256}

/-! ## Rebuilding what was pushed -/

theorem bufferFromHex_hex (bytes : Bytes) : bufferFromHex (hex bytes).toList = bytes := by
  rw [hex, String.toList_ofList, bufferFromHex_lower (toHexChars_lower bytes), fromHexChars_toHexChars]

variable {leaves : List Bytes} {oldEnd start stop : ℕ}

theorem prove_whole (hlt : start < stop) (h : stop ≤ oldEnd ∨ oldEnd ≤ start) :
    prove sha256 leaves start stop oldEnd = [hex (rootIn sha256 leaves start stop)] := by
  rw [prove]
  rw [if_neg (by omega)]
  by_cases hold : stop ≤ oldEnd
  · rw [if_pos hold]
  · rw [if_neg hold, if_pos (by omega)]

theorem prove_cut (hstart : start < oldEnd) (hstop : oldEnd < stop) : prove sha256 leaves start stop oldEnd
      = prove sha256 leaves start (start + split (stop - start)) oldEnd
        ++ prove sha256 leaves (start + split (stop - start)) stop oldEnd := by
  rw [prove]
  rw [if_neg (by omega), if_neg (by omega), if_neg (by omega)]
  dsimp only
  rw [largestPowerOfTwoLessThan_eq]

theorem check_cut (hstart : start < oldEnd) (hstop : oldEnd < stop) {proof middle rest : List String}
    {left right : Rebuilt}
    (hleft : check sha256 oldEnd start (start + split (stop - start) : ℕ) proof = some (left, middle))
    (hright : check sha256 oldEnd (start + split (stop - start) : ℕ) stop middle = some (right, rest)) :
    check sha256 oldEnd start stop proof = some (⟨nodeHash sha256 left.hash right.hash,
          joinOld sha256 left.old right.old (decide (oldEnd ≤ start + split (stop - start)))⟩, rest) := by
  have hwidth : ((stop : ℤ) - start).toNat = stop - start := by omega
  rw [Nat.cast_add] at hleft hright
  rw [check, if_neg (by omega), if_neg (by omega)]
  dsimp only
  rw [largestPowerOfTwoLessThan_eq, hwidth, hleft]
  dsimp only
  rw [hright]
  have hpast : decide ((oldEnd : ℤ) ≤ start + (split (stop - start) : ℕ))
      = decide (oldEnd ≤ start + split (stop - start)) := by
    apply decide_eq_decide.2
    omega
  rw [hpast]

/-- The part of a slice that lies in the old tree. -/
def oldPart (sha256 : Bytes → Digest) (leaves : List Bytes) (start stop oldEnd : ℕ) : Option Bytes :=
  if start < oldEnd then some (rootIn sha256 leaves start (min stop oldEnd)) else none

/-- At a seam the old parts of the two halves join to that of the whole. -/
theorem joinOld_oldPart (hstart : start < oldEnd) (hold : oldEnd < stop) (hstop : stop ≤ leaves.length) :
    joinOld sha256 (oldPart sha256 leaves start (start + split (stop - start)) oldEnd)
        (oldPart sha256 leaves (start + split (stop - start)) stop oldEnd)
        (decide (oldEnd ≤ start + split (stop - start))) = oldPart sha256 leaves start stop oldEnd := by
  unfold oldPart
  rw [if_pos hstart, if_pos hstart, min_eq_right (Nat.le_of_lt hold)]
  by_cases hseam : start + split (stop - start) < oldEnd
  · -- the old part splits where the whole slice does
    have hsplit : split (oldEnd - start) = split (stop - start) := split_prefix (by omega) (by omega)
    have hroot : rootIn sha256 leaves start oldEnd = nodeHash sha256
        (rootIn sha256 leaves start (start + split (oldEnd - start)))
        (rootIn sha256 leaves (start + split (oldEnd - start)) oldEnd) := by
      have hpos := split_pos (stop - start)
      exact rootIn_split (by omega) (by omega)
    rw [if_pos hseam, min_eq_left (Nat.le_of_lt hseam), hroot, hsplit]
    rfl
  · rw [if_neg hseam, min_eq_right (Nat.le_of_not_lt hseam), decide_eq_true (Nat.le_of_not_lt hseam)]
    rfl

/-- **REBUILD**: the check takes what `prove` pushed and no more, and comes out
    with the root over the slice and the root over its old part. -/
theorem check_prove (sha256 : Bytes → Digest) (leaves : List Bytes) (oldEnd size : ℕ) :
    ∀ {start stop : ℕ} (rest : List String),
    stop - start = size → start < stop → stop ≤ leaves.length →
      check sha256 oldEnd start stop (prove sha256 leaves start stop oldEnd ++ rest)
        = some (⟨rootIn sha256 leaves start stop, oldPart sha256 leaves start stop oldEnd⟩, rest) := by
  induction size using Nat.strongRecOn with
  | ind size ih =>
    intro start stop rest hsize hlt hstop
    by_cases hin : stop ≤ oldEnd
    · have hpart : oldPart sha256 leaves start stop oldEnd = some (rootIn sha256 leaves start stop) := by
        rw [oldPart, if_pos (by omega), min_eq_left hin]
      rw [prove_whole hlt (.inl hin), hpart, check, if_pos (by omega), List.singleton_append, take, Option.map_some,
        bufferFromHex_hex]
    · by_cases hout : oldEnd ≤ start
      · have hpart : oldPart sha256 leaves start stop oldEnd = none := if_neg (by omega)
        rw [prove_whole hlt (.inr hout), hpart, check, if_neg (by omega), if_pos (by omega),
          List.singleton_append, take,
          Option.map_some, bufferFromHex_hex]
      · have hpos := split_pos (stop - start)
        have hbelow := split_lt (n := stop - start) (by omega)
        rw [prove_cut (by omega) (by omega), List.append_assoc]
        rw [check_cut (by omega) (by omega)
          (ih (split (stop - start)) (by omega) _ (by omega) (by omega) (by omega))
          (ih (stop - (start + split (stop - start))) (by omega) _ rfl (by omega) hstop)]
        dsimp only
        rw [joinOld_oldPart (by omega) (by omega) hstop, ← rootIn_split (by omega) hstop]

/-- Something is pushed for every slice that is not empty. -/
theorem prove_ne_nil (size : ℕ) : ∀ {start stop : ℕ}, stop - start = size →
    start < stop → prove sha256 leaves start stop oldEnd ≠ [] := by
  induction size using Nat.strongRecOn with
  | ind size ih =>
    intro start stop hsize hlt
    by_cases hcut : start < oldEnd ∧ oldEnd < stop
    · have hpos := split_pos (stop - start)
      have hbelow := split_lt (n := stop - start) (by omega)
      rw [prove_cut hcut.1 hcut.2]
      intro hnil
      exact ih (split (stop - start)) (by omega) (by omega) (by omega) (List.append_eq_nil_iff.1 hnil).1
    · rw [prove_whole hlt (by omega)]
      exact List.cons_ne_nil _ _

/-! ## Completeness -/

/-- **COMPLETE**: for sizes in order the prover has a proof, and it is accepted
    under the two roots. -/
theorem consistencyProof_verifies (sha256 : Bytes → Digest) (leaves : List Bytes) (m n : ℤ) (h1 : 1 ≤ m) (hmn : m ≤ n)
    (hn : n ≤ leaves.length) : ∃ proof, consistencyProof sha256 leaves m n = .ok proof
      ∧ verifyConsistency sha256 m n (some (hex (rootOf sha256 (leaves.take m.toNat))))
        (some (hex (rootOf sha256 (leaves.take n.toNat)))) (some proof) = true := by
  obtain ⟨m', rfl⟩ : ∃ m' : ℕ, m = m' := ⟨m.toNat, by omega⟩
  obtain ⟨n', rfl⟩ : ∃ n' : ℕ, n = n' := ⟨n.toNat, by omega⟩
  rw [consistencyProof, if_neg (by omega), Int.toNat_natCast, Int.toNat_natCast]
  by_cases heq : m' = n'
  · subst heq
    rw [if_pos rfl]
    refine ⟨[], rfl, ?_⟩
    rw [verifyConsistency]
    rw [if_pos rfl, decide_eq_true rfl]
    rfl
  · rw [if_neg (by omega)]
    refine ⟨prove sha256 leaves 0 n' m', rfl, ?_⟩
    have hsome : (prove sha256 leaves 0 n' m').isEmpty = false := by
      rw [List.isEmpty_eq_false_iff]
      exact prove_ne_nil (n' - 0) rfl (by omega)
    have hcheck := check_prove sha256 leaves m' (n' - 0) [] rfl (show 0 < n' by omega)
      (show n' ≤ leaves.length by omega)
    rw [List.append_nil, oldPart, if_pos (show 0 < m' by omega), min_eq_right (show m' ≤ n' by omega), rootIn, rootIn,
      slice_prefix, slice_prefix, Nat.cast_zero] at hcheck
    rw [verifyConsistency]
    rw [if_neg (by omega), Option.getD_some, Option.getD_some, Option.getD_some, strip0x_hexOf, strip0x_hexOf, hsome,
      if_neg Bool.false_ne_true, rebuildsRoots, hcheck]
    dsimp only
    rw [decide_eq_true rfl, decide_eq_true rfl]
    rfl

theorem consistencyProof_verifies_threeOfFour :
    ∃ proof, consistencyProof sampleHash (sampleLeaves.map Digest.bytes) 3 4 = .ok proof
      ∧ verifyConsistency sampleHash 3 4
        (some (hex (rootOf sampleHash ((sampleLeaves.map Digest.bytes).take (Int.toNat 3)))))
        (some (hex (rootOf sampleHash ((sampleLeaves.map Digest.bytes).take (Int.toNat 4))))) (some proof) = true :=
  consistencyProof_verifies sampleHash (sampleLeaves.map Digest.bytes) 3 4 (by decide) (by decide) (by decide)

end GatewayComplete
