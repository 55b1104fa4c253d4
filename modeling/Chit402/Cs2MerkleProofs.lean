import Chit402.MerkleConsistencyProofs
import Chit402.HexDigestProofs
import Chit402.ExceptFlowProofs
import Mathlib.Data.List.Chain

/-! # The cs2-core Merkle module

    The RFC 9162 module of `cs2-core`: leaf and node hashes, the recursive
    tree hash and proofs over raw entries, and the two iterative verifiers
    over wire strings.  `createHash('sha256')` is the parameter `sha256`;
    everything else, the wire parser included, is the module's own code.

    Sizes are safe integers, so halving and doubling are exact and `Nat`
    stands for them; the values a caller may pass are `JsVal`.

    The two results are exactness of the verifiers against the prover:
    `inclusion_exact` and `consistency_exact`. -/

namespace Cs2Merkle

open MerkleLevel MerkleWalk MerkleConsistency HexDigest ExceptFlow

/-- A value a caller can pass: strings, numbers (integral, `-0`, any other),
    byte arrays, arrays, and everything else. -/
inductive JsVal where
  | str (s : String)
  | int (z : Int)
  | negZero
  | otherNumber
  | bytes (b : List UInt8)
  | arr (xs : List JsVal)
  | other

inductive Reason where
  | badType | badLeaf | badSize | badIndex | badHex | badProofElement | badLength
  | indexOutOfRange | mGtN | proofNotEmpty | rootMismatch | proofTooShort | proofTooLong
deriving DecidableEq

/-- Implementation limit: largest tree size this module will accept. -/
def maxTreeSize : Nat := 2 ^ 53 - 1

/-- Implementation limit: longest proof this module will accept. -/
def maxProofHashes : Nat := 64

variable (sha256 : List UInt8 → Digest)

def emptyRoot : Digest := sha256 []

def hashLeaf (data : List UInt8) : Digest := sha256 (0x00 :: data)

def hashPair (left right : Digest) : Digest := sha256 (0x01 :: (left.bytes ++ right.bytes))

def largestPowerOfTwoLessThan (n : Nat) : Nat := doubleBelow n 1

theorem largestPowerOfTwoLessThan_eq (n : Nat) : largestPowerOfTwoLessThan n = split n :=
  doubleBelow_eq_split 0 (Or.inr rfl)

/-! ## Argument checks -/

def checkEntries : JsVal → Except Reason (List (List UInt8))
  | .arr xs => xs.mapM fun
      | .bytes b => .ok b
      | _ => .error .badLeaf
  | _ => .error .badType

/-- The shared part of `checkSize` and `checkIndex`: a safe integer, not
    negative and not `-0`. -/
def checkSafe (reason : Reason) : JsVal → Except Reason Nat
  | .int z => if 0 ≤ z ∧ z ≤ 2 ^ 53 - 1 then .ok z.toNat else .error reason
  | _ => .error reason

def checkSize (value : JsVal) : Except Reason Nat :=
  match checkSafe .badSize value with
  | .error e => .error e
  | .ok size => if maxTreeSize < size then .error .badSize else .ok size

def checkIndex (value : JsVal) : Except Reason Nat := checkSafe .badIndex value

def parseWireHash : JsVal → Except Reason Digest
  | .str s =>
    if ¬ ∀ c ∈ s.toList, c ∈ hexAlphabet then .error .badHex
    else if s.toList.length % 2 ≠ 0 then .error .badProofElement
    else if h : s.toList.length = 64 then .ok (Digest.ofWire s h)
    else .error .badProofElement
  | _ => .error .badHex

def parseProof : JsVal → Except Reason (List Digest)
  | .arr xs =>
    if maxProofHashes < xs.length then .error .proofTooLong else xs.mapM parseWireHash
  | _ => .error .badType

/-! ## The prover -/

def leafHash : JsVal → Except Reason Digest
  | .bytes data => .ok (hashLeaf sha256 data)
  | _ => .error .badLeaf

def mthRange (entries : List (List UInt8)) (start stop : Nat) : Except Reason Digest :=
  if stop - start = 0 then .ok (emptyRoot sha256)
  else if stop - start = 1 then .ok (hashLeaf sha256 (entries.getD start []))
  else do
    let k := largestPowerOfTwoLessThan (stop - start)
    let left ← mthRange entries start (start + k)
    let right ← mthRange entries (start + k) stop
    .ok (hashPair sha256 left right)
termination_by stop - start
decreasing_by
  · have := split_lt (n := stop - start) (by omega)
    rw [largestPowerOfTwoLessThan_eq]
    omega
  · have := split_pos (stop - start)
    rw [largestPowerOfTwoLessThan_eq]
    omega

def mth (entries : JsVal) : Except Reason Digest := do
  let checked ← checkEntries entries
  mthRange sha256 checked 0 checked.length

/-- `index` lies in the range, so the range is never empty. -/
def pathRange (entries : List (List UInt8)) (start stop index : Nat) :
    Except Reason (List String) :=
  if stop - start ≤ 1 then .ok []
  else
    let k := largestPowerOfTwoLessThan (stop - start)
    if index - start < k then do
      let left ← pathRange entries start (start + k) index
      let right ← mthRange sha256 entries (start + k) stop
      .ok (left ++ [right.toHex])
    else do
      let right ← pathRange entries (start + k) stop index
      let left ← mthRange sha256 entries start (start + k)
      .ok (right ++ [left.toHex])
termination_by stop - start
decreasing_by
  · have := split_lt (n := stop - start) (by omega)
    rw [largestPowerOfTwoLessThan_eq]
    omega
  · have := split_pos (stop - start)
    rw [largestPowerOfTwoLessThan_eq]
    omega

def inclusionProof (entries index : JsVal) : Except Reason (List String) := do
  let checked ← checkEntries entries
  let idx ← checkIndex index
  if checked.length ≤ idx then .error .indexOutOfRange
  else pathRange sha256 checked 0 checked.length idx

/-- The old size is at least one, so a range of one leaf is already whole. -/
def subproofRange (entries : List (List UInt8)) (start stop m : Nat) (known : Bool) :
    Except Reason (List String) :=
  if m = stop - start then
    if known then .ok []
    else do
      let hash ← mthRange sha256 entries start stop
      .ok [hash.toHex]
  else if stop - start ≤ 1 then .ok []
  else
    let k := largestPowerOfTwoLessThan (stop - start)
    if m ≤ k then do
      let left ← subproofRange entries start (start + k) m known
      let right ← mthRange sha256 entries (start + k) stop
      .ok (left ++ [right.toHex])
    else do
      let right ← subproofRange entries (start + k) stop (m - k) false
      let left ← mthRange sha256 entries start (start + k)
      .ok (right ++ [left.toHex])
termination_by stop - start
decreasing_by
  · have := split_lt (n := stop - start) (by omega)
    rw [largestPowerOfTwoLessThan_eq]
    omega
  · have := split_pos (stop - start)
    rw [largestPowerOfTwoLessThan_eq]
    omega

def consistencyProof (entries m n : JsVal) : Except Reason (List String) := do
  let checked ← checkEntries entries
  let ms ← checkSize m
  let ns ← checkSize n
  if checked.length < ns then .error .badSize
  else if ns < ms then .error .mGtN
  else if ms = 0 ∨ ms = ns then .ok []
  else subproofRange sha256 checked 0 ns ms true

/-! ## The verifiers -/

def verifyInclusion (leaf index treeSize root proof : JsVal) : Except Reason Unit := do
  let leafH ← parseWireHash leaf
  let rootH ← parseWireHash root
  let size ← checkSize treeSize
  let idx ← checkIndex index
  if size ≤ idx then .error .indexOutOfRange
  else
    let nodes ← parseProof proof
    match proofLoop (includeLeft (hashPair sha256)) (includeRight (hashPair sha256)) idx
        (size - 1) leafH nodes with
    | none => .error .proofTooLong
    | some (sn, r) =>
      if sn ≠ 0 then .error .proofTooShort
      else if r ≠ rootH then .error .rootMismatch
      else .ok ()

/-- The two-root loop of `verifyConsistency`, from the seed node on. -/
def rebuildRoots (m n : Nat) (oldH newH : Digest) (nodes : List Digest) : Except Reason Unit :=
  match seedNodes m oldH nodes with
  | [] => .error .proofTooShort
  | seed :: rest =>
    match proofLoop (bothLeft (hashPair sha256)) (bothRight (hashPair sha256))
        (dropOdd (m - 1) (n - 1)).1 (dropOdd (m - 1) (n - 1)).2 (seed, seed) rest with
    | none => .error .proofTooLong
    | some (sn, fr, sr) =>
      if sn ≠ 0 then .error .proofTooShort
      else if fr ≠ oldH then .error .rootMismatch
      else if sr ≠ newH then .error .rootMismatch
      else .ok ()

/-- What `verifyConsistency` does once its arguments are read. -/
def verifyRead (m n : Nat) (oldH newH : Digest) (nodes : List Digest) : Except Reason Unit :=
  if n < m then .error .mGtN
  else if m = 0 then
    if nodes.length ≠ 0 then .error .proofNotEmpty
    else if oldH ≠ emptyRoot sha256 then .error .rootMismatch
    else if n = 0 ∧ newH ≠ emptyRoot sha256 then .error .rootMismatch
    else .ok ()
  else if m = n then
    if nodes.length ≠ 0 then .error .proofNotEmpty
    else if oldH ≠ newH then .error .rootMismatch
    else .ok ()
  else if nodes.length = 0 then .error .proofTooShort
  else rebuildRoots sha256 m n oldH newH nodes

def verifyConsistency (m n oldRoot newRoot proof : JsVal) : Except Reason Unit := do
  let ms ← checkSize m
  let ns ← checkSize n
  let oldH ← parseWireHash oldRoot
  let newH ← parseWireHash newRoot
  let nodes ← parseProof proof
  verifyRead sha256 ms ns oldH newH nodes

/-! ## What the checks accept -/

/-- The wire form of a digest, as an argument. -/
def wire (d : Digest) : JsVal := .str d.toHex

theorem parseWireHash_ok_iff (v : JsVal) (d : Digest) : parseWireHash v = .ok d ↔ v = wire d := by
  constructor
  · intro h
    cases v with
    | str s =>
      rw [parseWireHash] at h
      split at h
      · cases h
      · rename_i hlow
        split at h
        · cases h
        · split at h
          · rename_i h64
            cases h
            rw [wire, Digest.toHex_ofWire ⟨h64, not_not.mp hlow⟩]
          · cases h
    | _ => cases h
  · rintro rfl
    have hw := d.isWireHash
    rw [wire, parseWireHash, if_neg (not_not.mpr hw.2), if_neg (by rw [hw.1]; decide),
      dif_pos hw.1, d.ofWire_toHex hw.1]

@[simp] theorem parseWireHash_wire (d : Digest) : parseWireHash (wire d) = .ok d :=
  (parseWireHash_ok_iff _ d).mpr rfl

theorem parseProof_ok_iff (v : JsVal) (nodes : List Digest) :
    parseProof v = .ok nodes ↔ v = .arr (nodes.map wire) ∧ nodes.length ≤ maxProofHashes := by
  cases v with
  | arr xs =>
    rw [parseProof, ite_error_ok_iff, mapM_ok_iff_map parseWireHash_ok_iff, JsVal.arr.injEq]
    constructor
    · rintro ⟨hlen, rfl⟩
      rw [List.length_map] at hlen
      exact ⟨rfl, by omega⟩
    · rintro ⟨rfl, hlen⟩
      refine ⟨?_, rfl⟩
      rw [List.length_map]
      omega
  | _ => exact ⟨fun h => (nomatch h), fun h => (nomatch h.1)⟩

theorem checkSafe_ok_iff (e : Reason) (v : JsVal) (n : Nat) : checkSafe e v = .ok n ↔ v = .int n ∧ n ≤ maxTreeSize := by
  have hmax : maxTreeSize = 2 ^ 53 - 1 := rfl
  cases v with
  | int z =>
    rw [checkSafe]
    by_cases h : 0 ≤ z ∧ z ≤ 2 ^ 53 - 1
    · rw [if_pos h, Except.ok.injEq, JsVal.int.injEq]
      omega
    · rw [if_neg h, JsVal.int.injEq]
      constructor
      · exact fun hc => nomatch hc
      · rintro ⟨rfl, hn⟩
        omega
  | _ => exact ⟨fun h => (nomatch h), fun h => (nomatch h.1)⟩

theorem checkIndex_ok_iff (v : JsVal) (n : Nat) :
    checkIndex v = .ok n ↔ v = .int n ∧ n ≤ maxTreeSize := checkSafe_ok_iff _ v n

theorem checkSize_ok_iff (v : JsVal) (n : Nat) : checkSize v = .ok n ↔ v = .int n ∧ n ≤ maxTreeSize := by
  rw [checkSize, ← checkSafe_ok_iff .badSize v n]
  cases h : checkSafe .badSize v with
  | error e => simp
  | ok k =>
    have := ((checkSafe_ok_iff .badSize v k).mp h).2
    simp only [if_neg (show ¬ maxTreeSize < k by omega)]

theorem checkEntries_bytes (entries : List (List UInt8)) : checkEntries (.arr (entries.map .bytes)) = .ok entries := by
  rw [checkEntries, mapM_ok_iff, List.forall₂_map_left_iff, List.forall₂_same]
  exact fun _ _ => rfl

/-! ## The prover computes the tree hash, the path and SUBPROOF -/

/-- The leaf hashes of raw entries. -/
def leaves (entries : List (List UInt8)) : List Digest := entries.map (hashLeaf sha256)

def treeHash (xs : List Digest) : Digest :=
  MerkleLevel.mth (hashPair sha256) (emptyRoot sha256) xs

section

variable (entries : List (List UInt8))
include entries

theorem length_slice_leaves (start : Nat) {stop : Nat} (h : stop ≤ entries.length) :
    (slice (leaves sha256 entries) start stop).length = stop - start :=
  length_slice (by simpa [leaves] using h)

theorem mthRange_eq (start stop : Nat) (hle : start ≤ stop)
    (hstop : stop ≤ entries.length) : mthRange sha256 entries start stop
      = .ok (treeHash sha256 (slice (leaves sha256 entries) start stop)) := by
  fun_induction mthRange sha256 entries start stop with
  | case1 start stop h0 =>
    rw [treeHash, slice, h0, List.take_zero, MerkleLevel.mth_nil]
  | case2 start stop h0 h1 =>
    have hx : (leaves sha256 entries)[start]? = some (hashLeaf sha256 (entries.getD start [])) := by
      rw [leaves, List.getElem?_map, List.getD_eq_getElem?_getD, List.getElem?_eq_getElem (by omega)]
      rfl
    rw [slice_singleton hx (by omega), treeHash, MerkleLevel.mth_singleton]
  | case3 start stop h0 h1 k ih1 ih2 =>
    have hlen := length_slice_leaves sha256 entries start hstop
    have hlt := split_lt (n := stop - start) (by omega)
    have hp := split_pos (stop - start)
    have hk : k = split (stop - start) := largestPowerOfTwoLessThan_eq _
    rw [ih1 (by omega) (by omega), ih2 (by omega) hstop, ok_bind, ok_bind, treeHash, treeHash,
      treeHash, MerkleLevel.mth_split (slice (leaves sha256 entries) start stop) (by omega),
      hlen, ← hk, slice_take _ (by omega), slice_drop]

theorem mth_entries : mth sha256 (.arr (entries.map .bytes)) = .ok (treeHash sha256 (leaves sha256 entries)) := by
  have hwhole : slice (leaves sha256 entries) 0 entries.length = leaves sha256 entries := by
    have := slice_whole (leaves sha256 entries)
    rwa [leaves, List.length_map] at this
  rw [mth, checkEntries_bytes, ok_bind, mthRange_eq sha256 entries 0 _ (Nat.zero_le _) (Nat.le_refl _), hwhole]

theorem pathRange_eq (start stop index : Nat)
    (hle : start ≤ index) (hlt : index < stop) (hstop : stop ≤ entries.length) :
    pathRange sha256 entries start stop index = .ok ((path (hashPair sha256) (emptyRoot sha256) (index - start)
          (slice (leaves sha256 entries) start stop)).map Digest.toHex) := by
  fun_induction pathRange sha256 entries start stop index with
  | case1 start stop h1 =>
    have hlen := length_slice_leaves sha256 entries start hstop
    rw [path_short _ (by omega)]
    rfl
  | case2 start stop h1 k hik ih =>
    have hlen := length_slice_leaves sha256 entries start hstop
    have hspl := split_lt (n := stop - start) (by omega)
    have hk : k = split (stop - start) := largestPowerOfTwoLessThan_eq _
    rw [ih hle (by omega) (by omega), mthRange_eq sha256 entries _ stop (by omega) hstop, ok_bind, ok_bind,
      path_left (slice (leaves sha256 entries) start stop) (by omega) (by rw [hlen, ← hk]; exact hik),
      hlen, ← hk, slice_take _ (by omega), slice_drop, List.map_append]
    rfl
  | case3 start stop h1 k hik ih =>
    have hlen := length_slice_leaves sha256 entries start hstop
    have hspl := split_lt (n := stop - start) (by omega)
    have hk : k = split (stop - start) := largestPowerOfTwoLessThan_eq _
    rw [ih (by omega) hlt hstop, mthRange_eq sha256 entries start _ (by omega) (by omega), ok_bind, ok_bind,
      path_right (slice (leaves sha256 entries) start stop) (by omega) (by rw [hlen, ← hk]; omega), hlen, ← hk,
      slice_take _ (by omega), slice_drop, List.map_append, Nat.sub_add_eq]
    rfl

theorem subproofRange_eq (start stop m : Nat) (known : Bool)
    (h0 : 0 < m) (hle : m ≤ stop - start) (hstop : stop ≤ entries.length) :
    subproofRange sha256 entries start stop m known = .ok ((subproof (hashPair sha256) (emptyRoot sha256) m
          (slice (leaves sha256 entries) start stop) known).map Digest.toHex) := by
  fun_induction subproofRange sha256 entries start stop m known with
  | case1 start stop =>
    have hlen := length_slice_leaves sha256 entries start hstop
    rw [← hlen, subproof_whole]
    rfl
  | case2 start stop known hknown =>
    have hlen := length_slice_leaves sha256 entries start hstop
    rw [← hlen, subproof_whole, if_neg hknown, mthRange_eq sha256 entries start stop (by omega) hstop]
    rfl
  | case3 start stop m known hne h1 => omega
  | case4 start stop m known hne h1 k hmk ih =>
    have hlen := length_slice_leaves sha256 entries start hstop
    have hspl := split_lt (n := stop - start) (by omega)
    have hk : k = split (stop - start) := largestPowerOfTwoLessThan_eq _
    rw [ih h0 (by omega) (by omega), mthRange_eq sha256 entries _ stop (by omega) hstop, ok_bind, ok_bind,
      subproof_left (slice (leaves sha256 entries) start stop) known (by omega) (by omega)
        (by rw [hlen, ← hk]; exact hmk), hlen, ← hk, slice_take _ (by omega), slice_drop, List.map_append]
    rfl
  | case5 start stop m known hne h1 k hmk ih =>
    have hlen := length_slice_leaves sha256 entries start hstop
    have hspl := split_lt (n := stop - start) (by omega)
    have hk : k = split (stop - start) := largestPowerOfTwoLessThan_eq _
    rw [ih (by omega) (by omega) hstop, mthRange_eq sha256 entries start _ (by omega) (by omega), ok_bind, ok_bind,
      subproof_right (slice (leaves sha256 entries) start stop) known (by omega) (by omega)
        (by rw [hlen, ← hk]; omega), hlen, ← hk, slice_take _ (by omega), slice_drop, List.map_append]
    rfl

end

/-! ## Inclusion -/

theorem bind_wire {β : Type} (d : Digest) (f : Digest → Except Reason β) : (parseWireHash (wire d) >>= f) = f d := by
  rw [parseWireHash_wire, ok_bind]

variable {v : JsVal} {i m n : Nat} {e : Reason}

theorem checkSize_nat (h : n ≤ maxTreeSize) : checkSize (.int n) = .ok n :=
  (checkSize_ok_iff _ n).mpr ⟨rfl, h⟩

theorem checkIndex_nat (h : n ≤ maxTreeSize) : checkIndex (.int n) = .ok n :=
  (checkIndex_ok_iff _ n).mpr ⟨rfl, h⟩

/-- What an accepted inclusion call was given. -/
theorem verifyInclusion_ok_iff (leaf : JsVal) (proof : List JsVal) (rootH : Digest) (hn : n ≤ maxTreeSize)
    (hi : i < n) : verifyInclusion sha256 leaf (.int i) (.int n) (wire rootH) (.arr proof) = .ok ()
      ↔ ∃ leafH nodes, leaf = wire leafH ∧ proof = nodes.map wire ∧ nodes.length ≤ maxProofHashes
        ∧ climb (includeLeft (hashPair sha256)) (includeRight (hashPair sha256)) i (n - 1)
            leafH nodes = some rootH := by
  rw [verifyInclusion, bind_iff]
  refine exists_congr fun leafH => ?_
  rw [parseWireHash_ok_iff, bind_wire, checkSize_nat hn, ok_bind, checkIndex_nat (by omega),
    ok_bind, if_neg (by omega), bind_iff, exists_and_left]
  refine and_congr_right fun _ => exists_congr fun nodes => ?_
  rw [parseProof_ok_iff, JsVal.arr.injEq, and_assoc]
  refine and_congr_right fun _ => and_congr_right fun _ => ?_
  rw [← proofLoop_iff_climb nodes (show i ≤ n - 1 by omega)]
  split
  · rename_i h
    rw [h]
    simp
  · rename_i sn r h
    rw [h, ite_error_ok_iff, ite_error_ok_iff, Option.some.injEq, Prod.mk.injEq]
    simp

theorem inclusionProof_entries (entries : List (List UInt8)) (hmax : entries.length ≤ maxTreeSize)
    (hi : i < entries.length) : inclusionProof sha256 (.arr (entries.map .bytes)) (.int i)
      = .ok ((path (hashPair sha256) (emptyRoot sha256) i (leaves sha256 entries)).map Digest.toHex) := by
  have hwhole : slice (leaves sha256 entries) 0 entries.length = leaves sha256 entries := by
    have := slice_whole (leaves sha256 entries)
    rwa [leaves, List.length_map] at this
  rw [inclusionProof, checkEntries_bytes, ok_bind, checkIndex_nat (by omega), ok_bind,
    if_neg (by omega), pathRange_eq sha256 entries 0 _ i (Nat.zero_le _) hi (Nat.le_refl _), hwhole, Nat.sub_zero]

/-- The reasons an inclusion call with well-formed hashes can be refused for. -/
def InclusionRefusal (e : Reason) : Prop :=
  e = .badSize ∨ e = .badIndex ∨ e = .indexOutOfRange ∨ e = .proofTooLong ∨ e = .proofTooShort
    ∨ e = .rootMismatch

theorem checkSafe_error {reason : Reason} (h : checkSafe reason v = .error e) : e = reason := by
  cases v with
  | int z =>
    rw [checkSafe] at h
    split at h
    · cases h
    · exact (Except.error.inj h).symm
  | _ => exact (Except.error.inj h).symm

theorem checkSize_error (h : checkSize v = .error e) : e = .badSize := by
  rw [checkSize] at h
  split at h
  · rename_i hs
    rw [← Except.error.inj h]
    exact checkSafe_error hs
  · split at h
    · exact (Except.error.inj h).symm
    · cases h

theorem parseProof_wire (nodes : List Digest) : parseProof (.arr (nodes.map wire))
      = if maxProofHashes < nodes.length then .error .proofTooLong else .ok nodes := by
  by_cases h : maxProofHashes < nodes.length
  · rw [if_pos h, parseProof, if_pos (by rwa [List.length_map])]
  · rw [if_neg h]
    exact (parseProof_ok_iff _ nodes).mpr ⟨rfl, by omega⟩

/-- A call with well-formed hashes ends with a verdict or one of the reasons. -/
theorem verifyInclusion_total (leafH rootH : Digest) (nodes : List Digest) (i n : JsVal) :
    verifyInclusion sha256 (wire leafH) i n (wire rootH) (.arr (nodes.map wire)) = .ok ()
      ∨ ∃ e, InclusionRefusal e ∧ verifyInclusion sha256 (wire leafH) i n (wire rootH)
          (.arr (nodes.map wire)) = .error e := by
  rw [verifyInclusion, bind_wire, bind_wire]
  cases hn : checkSize n with
  | error e =>
    obtain rfl := checkSize_error hn
    exact Or.inr ⟨_, Or.inl rfl, rfl⟩
  | ok size =>
    rw [ok_bind]
    cases hi : checkIndex i with
    | error e =>
      obtain rfl := checkSafe_error hi
      exact Or.inr ⟨_, Or.inr (Or.inl rfl), rfl⟩
    | ok idx =>
      rw [ok_bind, parseProof_wire]
      by_cases hle : size ≤ idx
      · rw [if_pos hle]
        exact Or.inr ⟨_, by simp [InclusionRefusal], rfl⟩
      · rw [if_neg hle]
        by_cases hlong : maxProofHashes < nodes.length
        · rw [if_pos hlong]
          exact Or.inr ⟨_, by simp [InclusionRefusal], rfl⟩
        · rw [if_neg hlong, ok_bind]
          split
          · exact Or.inr ⟨_, by simp [InclusionRefusal], rfl⟩
          · rename_i sn r hloop
            by_cases hs : sn = 0
            · rw [if_neg (not_not.mpr hs)]
              by_cases hr : r = rootH
              · rw [if_neg (not_not.mpr hr)]
                exact Or.inl rfl
              · rw [if_pos hr]
                exact Or.inr ⟨_, by simp [InclusionRefusal], rfl⟩
            · rw [if_pos hs]
              exact Or.inr ⟨_, by simp [InclusionRefusal], rfl⟩

theorem exists_wire {s : String} (h : IsWireHash s) : ∃ d, JsVal.str s = wire d :=
  ⟨Digest.ofWire s h.1, by rw [wire, Digest.toHex_ofWire h]⟩

theorem exists_wires {proof : List String} (h : ∀ s ∈ proof, IsWireHash s) :
    ∃ nodes : List Digest, proof.map JsVal.str = nodes.map wire := by
  induction proof with
  | nil => exact ⟨[], rfl⟩
  | cons s proof ih =>
    obtain ⟨d, hd⟩ := exists_wire (h s (List.mem_cons_self ..))
    obtain ⟨nodes, hnodes⟩ := ih fun t ht => h t (List.mem_cons_of_mem _ ht)
    exact ⟨d :: nodes, by rw [List.map_cons, List.map_cons, hd, hnodes]⟩

/-- **INCLUSION IS EXACT**: against the tree hash of the entries the verifier
    accepts exactly the hash of the entry at the index with exactly the proof
    `inclusionProof` builds, and it refuses every other well-formed call. -/
theorem inclusion_exact (entries : List (List UInt8)) {i : Nat}
    (hmax : entries.length ≤ maxTreeSize) (hi : i < entries.length)
    (hcf : CollisionFree (hashPair sha256) (leaves sha256 entries)) :
    (∃ root, mth sha256 (.arr (entries.map .bytes)) = .ok root ∧ ∀ (leaf : String) (proof : List JsVal),
        verifyInclusion sha256 (.str leaf) (.int i) (.int entries.length) (.str root.toHex) (.arr proof) = .ok ()
          ↔ (∃ h, leafHash sha256 (.bytes entries[i]) = .ok h ∧ leaf = h.toHex)
            ∧ ∃ p, inclusionProof sha256 (.arr (entries.map .bytes)) (.int i) = .ok p ∧ proof = p.map .str)
    ∧ ∀ (leaf root : String) (proof : List String) (index size : Int), IsWireHash leaf →
        IsWireHash root → (∀ s ∈ proof, IsWireHash s) →
        verifyInclusion sha256 (.str leaf) (.int index) (.int size) (.str root) (.arr (proof.map .str)) = .ok ()
          ∨ ∃ e, InclusionRefusal e ∧ verifyInclusion sha256 (.str leaf) (.int index)
              (.int size) (.str root) (.arr (proof.map .str)) = .error e := by
  constructor
  · refine ⟨_, mth_entries sha256 entries, fun leaf proof => ?_⟩
    have hlen : (leaves sha256 entries).length = entries.length := by
      rw [leaves, List.length_map]
    have hx : (leaves sha256 entries)[i]? = some (hashLeaf sha256 entries[i]) := by
      rw [leaves, List.getElem?_map, List.getElem?_eq_getElem hi]
      rfl
    have hshort := length_path_le (hashPair sha256) (emptyRoot sha256) i 53
      (leaves sha256 entries) (by omega)
      (by rw [hlen]; exact Nat.le_trans hmax (by decide))
    have hexact := climb_inclusion_iff (emptyRoot sha256) hcf hx
    rw [hlen] at hexact
    have hspec := verifyInclusion_ok_iff sha256 (.str leaf) proof
      (treeHash sha256 (leaves sha256 entries)) hmax hi
    rw [wire] at hspec
    rw [hspec, inclusionProof_entries sha256 entries hmax hi, leafHash]
    constructor
    · rintro ⟨leafH, nodes, hleaf, rfl, -, hwalk⟩
      obtain ⟨rfl, rfl⟩ := (hexact _ _).mp hwalk
      refine ⟨⟨_, rfl, JsVal.str.inj hleaf⟩, _, rfl, ?_⟩
      rw [List.map_map]
      rfl
    · rintro ⟨⟨h, hh, rfl⟩, p, hp, rfl⟩
      obtain rfl := Except.ok.inj hh
      obtain rfl := Except.ok.inj hp
      refine ⟨_, _, rfl, ?_, ?_, (hexact _ _).mpr ⟨rfl, rfl⟩⟩
      · rw [List.map_map]
        rfl
      · exact Nat.le_trans hshort (by decide)
  · intro leaf root proof index size hleaf hroot hproof
    obtain ⟨leafH, hl⟩ := exists_wire hleaf
    obtain ⟨rootH, hr⟩ := exists_wire hroot
    obtain ⟨nodes, hp⟩ := exists_wires hproof
    rw [hl, hr, hp]
    exact verifyInclusion_total sha256 leafH rootH nodes _ _

/-! ### A two-entry sample -/

def sampleLeaf0 : Digest where
  bytes := [0x6e, 0x34, 0x0b, 0x9c, 0xff, 0xb3, 0x7a, 0x98, 0x9c, 0xa5, 0x44, 0xe6, 0xbb, 0x78,
    0x0a, 0x2c, 0x78, 0x90, 0x1d, 0x3f, 0xb3, 0x37, 0x38, 0x76, 0x85, 0x11, 0xa3, 0x06, 0x17,
    0xaf, 0xa0, 0x1d]
  size := rfl

def sampleLeaf1 : Digest where
  bytes := [0x96, 0xa2, 0x96, 0xd2, 0x24, 0xf2, 0x85, 0xc6, 0x7b, 0xee, 0x93, 0xc3, 0x0f, 0x8a,
    0x30, 0x91, 0x57, 0xf0, 0xda, 0xa3, 0x5d, 0xc5, 0xb8, 0x7e, 0x41, 0x0b, 0x78, 0x63, 0x0a,
    0x09, 0xcf, 0xc7]
  size := rfl

def sampleRoot : Digest where
  bytes := [0xfa, 0xc5, 0x42, 0x03, 0xe7, 0xcc, 0x69, 0x6c, 0xf0, 0xdf, 0xcb, 0x42, 0xc9, 0x2a,
    0x1d, 0x9d, 0xba, 0xf7, 0x0a, 0xd9, 0xe6, 0x21, 0xf4, 0xbd, 0x8d, 0x98, 0x66, 0x2f, 0x00,
    0xe3, 0xc1, 0x25]
  size := rfl

/-- SHA-256 of the empty string. -/
def emptyDigest : Digest where
  bytes := [0xe3, 0xb0, 0xc4, 0x42, 0x98, 0xfc, 0x1c, 0x14, 0x9a, 0xfb, 0xf4, 0xc8, 0x99, 0x6f,
    0xb9, 0x24, 0x27, 0xae, 0x41, 0xe4, 0x64, 0x9b, 0x93, 0x4c, 0xa4, 0x95, 0x99, 0x1b, 0x78,
    0x52, 0xb8, 0x55]
  size := rfl

/-- SHA-256 on the four messages the sample hashes, and the empty digest on the rest. -/
def sampleSha256 (message : List UInt8) : Digest :=
  if message = [0x00] then sampleLeaf0
  else if message = [0x00, 0x00] then sampleLeaf1
  else if message = 0x01 :: (sampleLeaf0.bytes ++ sampleLeaf1.bytes) then sampleRoot
  else emptyDigest

/-- The entries of the sample: the empty message and one zero byte. -/
def sampleEntries : List (List UInt8) := [[], [0x00]]

theorem sampleSha256_pair {c d : Digest} (h : hashPair sampleSha256 c d = sampleRoot) :
    c = sampleLeaf0 ∧ d = sampleLeaf1 := by
  have hne : sampleLeaf0 ≠ sampleRoot ∧ sampleLeaf1 ≠ sampleRoot ∧ emptyDigest ≠ sampleRoot := by
    decide
  by_cases hm : (0x01 : UInt8) :: (c.bytes ++ d.bytes)
      = 0x01 :: (sampleLeaf0.bytes ++ sampleLeaf1.bytes)
  · obtain ⟨hc, hd⟩ := List.append_inj (List.cons.inj hm).2 (by rw [c.size, sampleLeaf0.size])
    exact ⟨Digest.ext hc, Digest.ext hd⟩
  · rw [hashPair, sampleSha256, if_neg (by simp), if_neg (by simp), if_neg hm] at h
    exact absurd h hne.2.2

theorem sample_collisionFree : CollisionFree (hashPair sampleSha256) (leaves sampleSha256 sampleEntries) := by
  have hleaves : leaves sampleSha256 sampleEntries = [sampleLeaf0, sampleLeaf1] := by decide
  have hroot : hashPair sampleSha256 sampleLeaf0 sampleLeaf1 = sampleRoot := by decide
  rw [hleaves]
  refine CollisionFree.of_pair fun c d h => ?_
  rw [hroot] at h
  exact sampleSha256_pair h

theorem inclusion_exact_sample : (∃ root, mth sampleSha256 (.arr (sampleEntries.map .bytes)) = .ok root
      ∧ ∀ (leaf : String) (proof : List JsVal),
        verifyInclusion sampleSha256 (.str leaf) (.int (1 : Nat)) (.int (2 : Nat))
            (.str root.toHex) (.arr proof) = .ok ()
          ↔ (∃ h, leafHash sampleSha256 (.bytes [0x00]) = .ok h ∧ leaf = h.toHex)
            ∧ ∃ p, inclusionProof sampleSha256 (.arr (sampleEntries.map .bytes))
                (.int (1 : Nat)) = .ok p ∧ proof = p.map .str) :=
  (inclusion_exact sampleSha256 sampleEntries (i := 1) (by decide) (by decide)
    sample_collisionFree).1

/-! ## Consistency -/

theorem rebuildRoots_ok_iff (hle : m ≤ n) (oldH newH : Digest) (nodes : List Digest) :
    rebuildRoots sha256 m n oldH newH nodes = .ok ()
      ↔ consistencyWalk (hashPair sha256) m n oldH nodes = some (oldH, newH) := by
  rw [rebuildRoots, consistencyWalk]
  cases seedNodes m oldH nodes with
  | nil => simp
  | cons seed rest =>
    have hdrop := dropOdd_le (show m - 1 ≤ n - 1 by omega)
    simp only
    rw [← proofLoop_iff_climb rest hdrop]
    split
    · rename_i h
      rw [h]
      simp
    · rename_i sn fr sr h
      rw [h, ite_error_ok_iff, ite_error_ok_iff, ite_error_ok_iff, Option.some.injEq, Prod.mk.injEq, Prod.mk.injEq]
      simp

/-- What an accepted consistency call was given. -/
theorem verifyConsistency_ok_iff (old : JsVal) (proof : List JsVal) (newH : Digest) (hm : m ≤ maxTreeSize)
    (hn : n ≤ maxTreeSize) : verifyConsistency sha256 (.int m) (.int n) old (wire newH) (.arr proof) = .ok ()
      ↔ ∃ oldH nodes, old = wire oldH ∧ proof = nodes.map wire
        ∧ nodes.length ≤ maxProofHashes ∧ verifyRead sha256 m n oldH newH nodes = .ok () := by
  rw [verifyConsistency, checkSize_nat hm, ok_bind, checkSize_nat hn, ok_bind, bind_iff]
  refine exists_congr fun oldH => ?_
  rw [parseWireHash_ok_iff, bind_wire, bind_iff, exists_and_left]
  refine and_congr_right fun _ => exists_congr fun nodes => ?_
  rw [parseProof_ok_iff, JsVal.arr.injEq, and_assoc]

theorem verifyRead_proper_iff (h0 : 0 < m) (hlt : m < n) (oldH newH : Digest) (nodes : List Digest) :
    verifyRead sha256 m n oldH newH nodes = .ok ()
      ↔ nodes ≠ [] ∧ consistencyWalk (hashPair sha256) m n oldH nodes = some (oldH, newH) := by
  rw [verifyRead, if_neg (by omega), if_neg (by omega), if_neg (by omega), ite_error_ok_iff,
    rebuildRoots_ok_iff sha256 (by omega), List.length_eq_zero_iff]

theorem verifyRead_same_iff (h0 : 0 < m) (oldH newH : Digest) (nodes : List Digest) :
    verifyRead sha256 m m oldH newH nodes = .ok () ↔ nodes = [] ∧ oldH = newH := by
  rw [verifyRead, if_neg (by omega), if_neg (by omega), if_pos rfl, ite_error_ok_iff,
    ite_error_ok_iff, not_not, not_not, List.length_eq_zero_iff]
  simp

theorem verifyRead_genesis_iff (n : Nat) (oldH newH : Digest) (nodes : List Digest) :
    verifyRead sha256 0 n oldH newH nodes = .ok ()
      ↔ nodes = [] ∧ oldH = emptyRoot sha256 ∧ (n = 0 → newH = emptyRoot sha256) := by
  rw [verifyRead, if_neg (by omega), if_pos rfl, ite_error_ok_iff, ite_error_ok_iff,
    ite_error_ok_iff, not_not, not_not, List.length_eq_zero_iff, not_and, not_not]
  simp

/-- A proof the walk accepts has at most one element per bit of the new size, and the seed. -/
theorem consistencyWalk_length_le {node : Digest → Digest → Digest} {t : Nat} {oldH : Digest} {nodes : List Digest}
    {r : Digest × Digest} (h0 : 0 < n) (hn : n ≤ 2 ^ t) (h : consistencyWalk node m n oldH nodes = some r) :
    nodes.length ≤ t + 1 := by
  have hseed : nodes.length ≤ (seedNodes m oldH nodes).length := by
    rw [seedNodes]
    split
    · exact Nat.le_succ _
    · exact Nat.le_refl _
  rw [consistencyWalk] at h
  split at h
  · cases h
  · rename_i seed rest hs
    have hsn := dropOdd_snd_le (m - 1) (n - 1)
    have hrest := climb_length_le t _ rest h (by omega)
    rw [hs, List.length_cons] at hseed
    omega

theorem consistencyProof_entries (entries : List (List UInt8)) (hmax : entries.length ≤ maxTreeSize) (h0 : 0 < m)
    (hlt : m < n) (hn : n ≤ entries.length) : consistencyProof sha256 (.arr (entries.map .bytes)) (.int m) (.int n)
      = .ok ((subproof (hashPair sha256) (emptyRoot sha256) m
          (leaves sha256 (entries.take n)) true).map Digest.toHex) := by
  rw [consistencyProof, checkEntries_bytes, ok_bind, checkSize_nat (by omega), ok_bind,
    checkSize_nat (by omega), ok_bind, if_neg (by omega), if_neg (by omega), if_neg (by omega),
    subproofRange_eq sha256 entries 0 n m true h0 (by omega) hn, slice_prefix, leaves, leaves, List.map_take]

/-- **CONSISTENCY IS EXACT**: against the tree hash of the first `n` entries the
    verifier accepts exactly the tree hash of the first `m` with exactly the
    proof `consistencyProof` builds; equal sizes and genesis take no proof. -/
theorem consistency_exact (entries : List (List UInt8)) (hmax : entries.length ≤ maxTreeSize) :
    (∀ m n, 1 ≤ m → m < n → n ≤ entries.length → CollisionFree (hashPair sha256) (leaves sha256 (entries.take n)) →
      ∃ oldRoot newRoot, mth sha256 (.arr ((entries.take m).map .bytes)) = .ok oldRoot
        ∧ mth sha256 (.arr ((entries.take n).map .bytes)) = .ok newRoot ∧ ∀ (old : String) (proof : List JsVal),
          verifyConsistency sha256 (.int m) (.int n) (.str old) (.str newRoot.toHex) (.arr proof) = .ok ()
            ↔ old = oldRoot.toHex ∧ ∃ p, consistencyProof sha256 (.arr (entries.map .bytes)) (.int m) (.int n)
                  = .ok p ∧ proof = p.map .str)
    ∧ (∀ m : Nat, 1 ≤ m → m ≤ maxTreeSize → ∀ (old : String) (newRoot : Digest) (proof : List JsVal),
        verifyConsistency sha256 (.int m) (.int m) (.str old) (.str newRoot.toHex)
            (.arr proof) = .ok () ↔ old = newRoot.toHex ∧ proof = [])
    ∧ ∀ n : Nat, n ≤ maxTreeSize → ∀ (old : String) (newRoot : Digest) (proof : List JsVal),
        verifyConsistency sha256 (.int (0 : Nat)) (.int n) (.str old) (.str newRoot.toHex) (.arr proof) = .ok ()
          ↔ old = (emptyRoot sha256).toHex ∧ proof = [] ∧ (n = 0 → newRoot = emptyRoot sha256) := by
  -- a proper prefix, equal sizes, the empty prefix
  refine ⟨?_, ?_, ?_⟩
  · intro m n h0 hlt hn hcf
    refine ⟨_, _, mth_entries sha256 _, mth_entries sha256 _, fun old proof => ?_⟩
    have hlen : (leaves sha256 (entries.take n)).length = n := by
      rw [leaves, List.length_map, List.length_take]
      omega
    have htake : (leaves sha256 (entries.take n)).take m = leaves sha256 (entries.take m) := by
      rw [leaves, leaves, ← List.map_take, List.take_take, show min m n = m by omega]
    have hexact := consistencyWalk_iff (emptyRoot sha256) hcf h0 (by omega)
    rw [hlen, htake] at hexact
    have hspec := verifyConsistency_ok_iff sha256 (.str old) proof
      (treeHash sha256 (leaves sha256 (entries.take n))) (show m ≤ maxTreeSize by omega)
      (show n ≤ maxTreeSize by omega)
    rw [wire] at hspec
    rw [hspec, consistencyProof_entries sha256 entries hmax h0 hlt hn]
    constructor
    · rintro ⟨oldH, nodes, hold, rfl, -, hread⟩
      obtain ⟨rfl, rfl⟩ := (hexact _ _).mp ((verifyRead_proper_iff sha256 h0 hlt ..).mp hread).2
      refine ⟨JsVal.str.inj hold, _, rfl, ?_⟩
      rw [List.map_map]
      rfl
    · rintro ⟨rfl, p, hp, rfl⟩
      obtain rfl := Except.ok.inj hp
      have hwalk := (hexact _ _).mpr ⟨rfl, rfl⟩
      have hshort := consistencyWalk_length_le (t := 53) (by omega)
        (by exact Nat.le_trans (Nat.le_trans hn hmax) (by decide)) hwalk
      refine ⟨_, _, rfl, ?_, Nat.le_trans hshort (by decide),
        (verifyRead_proper_iff sha256 h0 hlt ..).mpr ⟨?_, hwalk⟩⟩
      · rw [List.map_map]
        rfl
      · exact subproof_ne_nil h0 (by omega) true
  · intro m h0 hm old newRoot proof
    have hspec := verifyConsistency_ok_iff sha256 (.str old) proof newRoot hm hm
    rw [wire] at hspec
    rw [hspec]
    constructor
    · rintro ⟨oldH, nodes, hold, rfl, -, hread⟩
      obtain ⟨rfl, rfl⟩ := (verifyRead_same_iff sha256 h0 ..).mp hread
      exact ⟨JsVal.str.inj hold, rfl⟩
    · rintro ⟨rfl, rfl⟩
      exact ⟨newRoot, [], rfl, rfl, Nat.zero_le _,
        (verifyRead_same_iff sha256 h0 ..).mpr ⟨rfl, rfl⟩⟩
  · intro n hn old newRoot proof
    have hspec := verifyConsistency_ok_iff sha256 (.str old) proof newRoot (Nat.zero_le _) hn
    rw [wire] at hspec
    rw [hspec]
    constructor
    · rintro ⟨oldH, nodes, hold, rfl, -, hread⟩
      obtain ⟨rfl, rfl, hnew⟩ := (verifyRead_genesis_iff sha256 ..).mp hread
      exact ⟨JsVal.str.inj hold, rfl, hnew⟩
    · rintro ⟨rfl, rfl, hnew⟩
      exact ⟨emptyRoot sha256, [], rfl, rfl, Nat.zero_le _,
        (verifyRead_genesis_iff sha256 ..).mpr ⟨rfl, rfl, hnew⟩⟩

theorem consistency_exact_sample :
    ∃ oldRoot newRoot, mth sampleSha256 (.arr ((sampleEntries.take 1).map .bytes)) = .ok oldRoot
      ∧ mth sampleSha256 (.arr ((sampleEntries.take 2).map .bytes)) = .ok newRoot
      ∧ ∀ (old : String) (proof : List JsVal),
        verifyConsistency sampleSha256 (.int (1 : Nat)) (.int (2 : Nat)) (.str old)
            (.str newRoot.toHex) (.arr proof) = .ok () ↔ old = oldRoot.toHex
            ∧ ∃ p, consistencyProof sampleSha256 (.arr (sampleEntries.map .bytes))
                (.int (1 : Nat)) (.int (2 : Nat)) = .ok p ∧ proof = p.map .str :=
  (consistency_exact sampleSha256 sampleEntries (by decide)).1 1 2 (by decide) (by decide)
    (by decide) sample_collisionFree

/-! ## Chains of accepted heads -/

/-- The size and the root of a tree. -/
abbrev Head := Nat × Digest

/-- Some proof leads from the old head to the new one. -/
def Extends (old new : Head) : Prop :=
  ∃ proof, verifyConsistency sha256 (.int old.1) (.int new.1) (wire old.2) (wire new.2) proof = .ok ()

/-- The head of the first entries of a log. -/
def PrefixHead (entries : List (List UInt8)) (h : Head) : Prop :=
  h.1 ≤ entries.length ∧ h.2 = treeHash sha256 (leaves sha256 (entries.take h.1))

section

variable {sha256} {entries : List (List UInt8)}

theorem length_leaves_take {n : Nat} (hn : n ≤ entries.length) : (leaves sha256 (entries.take n)).length = n := by
  rw [leaves, List.length_map, List.length_take, Nat.min_eq_left hn]

variable (hcf : PrefixCollisionFree (hashPair sha256) (leaves sha256 entries))
include hcf

theorem collisionFree_take (n : Nat) : CollisionFree (hashPair sha256) (leaves sha256 (entries.take n)) := by
  rw [leaves, List.map_take]
  exact hcf n

/-- **STEP**: what leads to a head of the log is one. -/
theorem PrefixHead.of_extends {old new : Head} (hstep : Extends sha256 old new) (hnew : PrefixHead sha256 entries new) :
    PrefixHead sha256 entries old := by
  obtain ⟨proof, hok⟩ := hstep
  obtain ⟨hle, hroot⟩ := hnew
  simp only [verifyConsistency, bind_iff, checkSize_ok_iff, bind_wire, JsVal.int.injEq, Int.ofNat_inj] at hok
  obtain ⟨_, ⟨rfl, -⟩, _, ⟨rfl, -⟩, nodes, -, hread⟩ := hok
  rcases Nat.eq_zero_or_pos old.1 with h0 | h0
  · rw [h0, verifyRead_genesis_iff] at hread
    refine ⟨by omega, ?_⟩
    rw [hread.2.1, h0, treeHash, leaves, List.take_zero, List.map_nil, MerkleLevel.mth_nil]
  · rcases Nat.lt_trichotomy old.1 new.1 with hlt | heq | hgt
    · have hexact := consistencyWalk_iff (emptyRoot sha256) (collisionFree_take hcf new.1) h0
        (by rwa [length_leaves_take hle])
      rw [length_leaves_take hle] at hexact
      rw [hroot, verifyRead_proper_iff sha256 h0 hlt] at hread
      refine ⟨hlt.le.trans hle, ((hexact _ _).1 hread.2).1.trans ?_⟩
      rw [leaves, ← List.map_take, List.take_take, Nat.min_eq_left hlt.le]
      rfl
    · rw [← heq, verifyRead_same_iff sha256 h0] at hread
      exact ⟨heq.trans_le hle, by rw [hread.2, hroot, heq]⟩
    · rw [verifyRead, if_pos hgt] at hread
      cases hread

/-- What a head of the log admits is in the log. -/
theorem PrefixHead.entry {h : Head} (hhead : PrefixHead sha256 entries h) {leaf index proof : JsVal}
    (hok : verifyInclusion sha256 leaf index (.int h.1) (wire h.2) proof = .ok ()) :
    ∃ i leafH, index = .int (i : Nat) ∧ leaf = wire leafH ∧ (leaves sha256 entries)[i]? = some leafH := by
  have hread := hok
  simp only [verifyInclusion, bind_iff, parseWireHash_ok_iff, checkSize_ok_iff, checkIndex_ok_iff, ite_error_ok_iff,
    parseProof_ok_iff, JsVal.int.injEq, Int.ofNat_inj, not_le] at hread
  obtain ⟨leafH, rfl, -, -, _, ⟨rfl, hmax⟩, i, ⟨rfl, -⟩, hi, nodes, ⟨rfl, -⟩, -⟩ := hread
  obtain ⟨leafH', nodes', hleaf, -, -, hwalk⟩ := (verifyInclusion_ok_iff sha256 _ _ h.2 hmax hi).1 hok
  obtain ⟨x, hx⟩ : ∃ x, (leaves sha256 (entries.take h.1))[i]? = some x :=
    ⟨_, List.getElem?_eq_getElem (by rwa [length_leaves_take hhead.1])⟩
  have hexact := climb_inclusion_iff (emptyRoot sha256) (collisionFree_take hcf h.1) hx
  rw [length_leaves_take hhead.1] at hexact
  rw [hhead.2] at hwalk
  obtain ⟨rfl, -⟩ := (hexact _ _).1 hwalk
  rw [leaves, List.map_take, List.getElem?_take_of_lt hi] at hx
  exact ⟨i, x, rfl, hleaf, hx⟩

/-- **RUN**: every head of a chain that ends at a head of the log is one, and what any of them admits is in it. -/
theorem chain_of_prefixes {heads : List Head} (hchain : heads.IsChain (Extends sha256))
    (hlast : (hne : heads ≠ []) → PrefixHead sha256 entries (heads.getLast hne)) : ∀ h ∈ heads,
      PrefixHead sha256 entries h
      ∧ ∀ leaf index proof, verifyInclusion sha256 leaf index (.int h.1) (wire h.2) proof = .ok () →
        ∃ i leafH, index = .int (i : Nat) ∧ leaf = wire leafH ∧ (leaves sha256 entries)[i]? = some leafH := by
  intro h hmem
  have hhead := hchain.backwards_induction (PrefixHead sha256 entries) heads
    (fun _ _ hstep => PrefixHead.of_extends hcf hstep) hlast h hmem
  exact ⟨hhead, fun _ _ _ => hhead.entry hcf⟩

end

theorem chain_of_prefixes_sample : PrefixHead sampleSha256 sampleEntries (1, sampleLeaf0) ∧ ∃ i leafH,
    JsVal.int 0 = .int (i : Nat) ∧ wire sampleLeaf0 = wire leafH
      ∧ (leaves sampleSha256 sampleEntries)[i]? = some leafH := by
  have hcf : PrefixCollisionFree (hashPair sampleSha256) (leaves sampleSha256 sampleEntries) := by
    intro n
    rcases Nat.lt_or_ge n 2 with hn | hn
    · exact (PrefixCollisionFree.of_short (by rw [List.length_take]; omega)).whole
    · rw [List.take_of_length_le hn]
      exact sample_collisionFree
  have hchain : List.IsChain (Extends sampleSha256) [(1, sampleLeaf0), (2, sampleRoot)] :=
    List.isChain_pair.2 ⟨.arr [wire sampleLeaf1],
      (verifyConsistency_ok_iff sampleSha256 _ _ _ (by decide) (by decide)).2
      ⟨_, [_], rfl, rfl, by decide, by decide +kernel⟩⟩
  have hlast : PrefixHead sampleSha256 sampleEntries (2, sampleRoot) := ⟨by decide, by decide +kernel⟩
  have h := chain_of_prefixes hcf hchain (fun _ => hlast) _ List.mem_cons_self
  exact ⟨h.1, h.2 (wire sampleLeaf0) (.int 0) (.arr []) (by decide +kernel)⟩

end Cs2Merkle
