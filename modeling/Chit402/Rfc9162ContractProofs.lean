import Chit402.MerkleConsistencyProofs
import Chit402.HexDigestProofs
import Chit402.SolidityProofs

/-! # The on-chain RFC 9162 library

    `Rfc9162.verifyConsistency` of the anchor contract: the same walk as the
    general one, written over `uint64` with shifts, a bit trick for powers
    of two, checked subtraction and a bounds-checked array.

    The loops are read back on `Nat` one at a time, and the call never
    reverts: every path returns a code. -/

namespace Rfc9162Contract

open MerkleLevel MerkleWalk MerkleConsistency HexDigest ExceptFlow Solidity

inductive Code where
  | ok | mGtN | proofNotEmpty | rootMismatch | proofTooShort | proofTooLong
deriving DecidableEq

def emptyRootBytes : List UInt8 :=
  [0xe3, 0xb0, 0xc4, 0x42, 0x98, 0xfc, 0x1c, 0x14, 0x9a, 0xfb, 0xf4, 0xc8, 0x99, 0x6f,
    0xb9, 0x24, 0x27, 0xae, 0x41, 0xe4, 0x64, 0x9b, 0x93, 0x4c, 0xa4, 0x95, 0x99, 0x1b, 0x78,
    0x52, 0xb8, 0x55]

theorem length_emptyRootBytes : emptyRootBytes.length = 32 := rfl

/-- SHA-256 of the empty string, as the contract writes it out. -/
def emptyRoot : Digest where
  bytes := emptyRootBytes
  size := length_emptyRootBytes

variable (sha256 : List UInt8 → Digest)

def node (left right : Digest) : Digest := sha256 (0x01 :: (left.bytes ++ right.bytes))

def lsb (x : UInt64) : Bool := (x &&& 1) == 1

def pow2 (m : UInt64) : Except Panic Bool :=
  if m ≠ 0 then do
    let below ← checkedSub m 1
    .ok ((m &&& below) == 0)
  else .ok false

theorem lsb_iff (x : UInt64) : lsb x = true ↔ x.toNat % 2 = 1 := by
  rw [lsb, beq_iff_eq, ← UInt64.toNat_inj, UInt64.toNat_and, show (1 : UInt64).toNat = 1 from rfl, Nat.and_one_is_mod]

theorem toNat_shift (x : UInt64) : (x >>> 1).toNat = x.toNat / 2 := by
  rw [UInt64.toNat_shiftRight]
  rfl

theorem toNat_eq_zero_iff (x : UInt64) : x.toNat = 0 ↔ x = 0 := by
  rw [← UInt64.toNat_inj]
  rfl

/-- `while (_lsb(fn)) { fn >>= 1; sn >>= 1; }` -/
def stripOnes (fn sn : UInt64) : UInt64 × UInt64 :=
  if lsb fn then stripOnes (fn >>> 1) (sn >>> 1) else (fn, sn)
termination_by fn.toNat
decreasing_by
  rename_i h
  rw [lsb_iff] at h
  rw [toNat_shift]
  omega

/-- `while (!_lsb(fn) && fn != 0) { fn >>= 1; sn >>= 1; }` -/
def skipZeros (fn sn : UInt64) : UInt64 × UInt64 :=
  if ¬ lsb fn ∧ fn ≠ 0 then skipZeros (fn >>> 1) (sn >>> 1) else (fn, sn)
termination_by fn.toNat
decreasing_by
  rename_i h
  rw [ne_eq, ← toNat_eq_zero_iff] at h
  rw [toNat_shift]
  omega

/-- The loop over `nodes` from index one; `none` is the early return inside it. -/
def walk (fn sn : UInt64) (fr sr : Digest) : List Digest → Option (UInt64 × Digest × Digest)
  | [] => some (sn, fr, sr)
  | c :: rest =>
    if sn = 0 then none
    else if lsb fn ∨ fn = sn then
      walk ((skipZeros fn sn).1 >>> 1) ((skipZeros fn sn).2 >>> 1) (node sha256 c fr)
        (node sha256 c sr) rest
    else walk (fn >>> 1) (sn >>> 1) fr (node sha256 sr c) rest

def verifyConsistency (m n : UInt64) (oldRoot newRoot : Digest) (proof : List Digest) :
    Except Panic Code :=
  if n < m then .ok .mGtN
  else if m = 0 then
    if proof.length ≠ 0 then .ok .proofNotEmpty
    else if oldRoot ≠ emptyRoot then .ok .rootMismatch
    else if n = 0 ∧ newRoot ≠ emptyRoot then .ok .rootMismatch
    else .ok .ok
  else if m = n then
    if proof.length ≠ 0 then .ok .proofNotEmpty
    else if oldRoot ≠ newRoot then .ok .rootMismatch
    else .ok .ok
  else if proof.length = 0 then .ok .proofTooShort
  else do
    let prepend ← pow2 m
    let nodes := if prepend then oldRoot :: proof else proof
    let fn ← checkedSub m 1
    let sn ← checkedSub n 1
    match nodes with
    | [] => .error .arrayBounds
    | seed :: rest =>
      match walk sha256 (stripOnes fn sn).1 (stripOnes fn sn).2 seed seed rest with
      | none => .ok .proofTooLong
      | some (sn, fr, sr) =>
        if sn ≠ 0 then .ok .proofTooShort
        else if fr ≠ oldRoot then .ok .rootMismatch
        else if sr ≠ newRoot then .ok .rootMismatch
        else .ok .ok

/-! ## The loops on natural numbers -/

theorem stripOnes_toNat (fn sn : UInt64) :
    ((stripOnes fn sn).1.toNat, (stripOnes fn sn).2.toNat) = dropOdd fn.toNat sn.toNat := by
  fun_induction stripOnes fn sn with
  | case1 fn sn h ih =>
    rw [dropOdd, if_pos ((lsb_iff fn).mp h), ih, toNat_shift, toNat_shift]
  | case2 fn sn h =>
    rw [dropOdd, if_neg (fun hodd => h ((lsb_iff fn).mpr hodd))]

theorem skipZeros_toNat (fn sn : UInt64) :
    ((skipZeros fn sn).1.toNat, (skipZeros fn sn).2.toNat) = dropEven fn.toNat sn.toNat := by
  fun_induction skipZeros fn sn with
  | case1 fn sn h ih =>
    rw [lsb_iff, ne_eq, ← toNat_eq_zero_iff] at h
    rw [dropEven, if_pos (by omega), ih, toNat_shift, toNat_shift]
  | case2 fn sn h =>
    rw [lsb_iff, ne_eq, ← toNat_eq_zero_iff] at h
    rw [dropEven, if_neg (by omega)]

/-- **THE LOOP IS THE GENERAL ONE** with the size index read as a number. -/
theorem walk_toNat (fn sn : UInt64) (fr sr : Digest) (rest : List Digest) :
    (walk sha256 fn sn fr sr rest).map (fun r => (r.1.toNat, r.2))
      = proofLoop (bothLeft (node sha256)) (bothRight (node sha256)) fn.toNat sn.toNat (fr, sr)
          rest := by
  induction rest generalizing fn sn fr sr with
  | nil => rfl
  | cons c rest ih =>
    have hskip := skipZeros_toNat fn sn
    have hcond : (lsb fn ∨ fn = sn) ↔ (fn.toNat % 2 = 1 ∨ fn.toNat = sn.toNat) := by
      rw [lsb_iff, UInt64.toNat_inj]
    rw [walk, proofLoop]
    by_cases h0 : sn = 0
    · rw [if_pos h0, if_pos ((toNat_eq_zero_iff sn).mpr h0)]
      rfl
    · rw [if_neg h0, if_neg (fun h => h0 ((toNat_eq_zero_iff sn).mp h))]
      by_cases hc : lsb fn ∨ fn = sn
      · rw [if_pos hc, if_pos (hcond.mp hc), ih, toNat_shift, toNat_shift, ← hskip]
        rfl
      · rw [if_neg hc, if_neg (fun h => hc (hcond.mpr h)), ih, toNat_shift, toNat_shift]
        rfl

theorem isPow2_iff (m : Nat) : isPow2 m = true ↔ ∃ k, m = 2 ^ k := by
  fun_induction isPow2 m with
  | case1 =>
    simp only [Bool.false_eq_true, false_iff, not_exists]
    exact fun k h => absurd (Nat.two_pow_pos k) (by omega)
  | case2 m h0 heven ih =>
    rw [ih]
    constructor
    · rintro ⟨k, hk⟩
      exact ⟨k + 1, by rw [Nat.pow_succ]; omega⟩
    · rintro ⟨k, hk⟩
      cases k with
      | zero => exact absurd hk (by omega)
      | succ k => exact ⟨k, by rw [Nat.pow_succ] at hk; omega⟩
  | case3 m h0 hodd =>
    rw [decide_eq_true_iff]
    constructor
    · rintro rfl
      exact ⟨0, rfl⟩
    · rintro ⟨k, hk⟩
      cases k with
      | zero => exact hk
      | succ k => exact absurd hk (by rw [Nat.pow_succ]; omega)

variable {proof : List Digest} {m n : UInt64}

theorem checkedSub_one (h : m ≠ 0) : ∃ d, checkedSub m 1 = .ok d ∧ d.toNat = m.toNat - 1 := by
  have hpos : m.toNat ≠ 0 := fun h' => h ((toNat_eq_zero_iff m).mp h')
  have hle : (1 : UInt64) ≤ m := by
    rw [UInt64.le_iff_toNat_le, show (1 : UInt64).toNat = 1 from rfl]
    omega
  refine ⟨m - 1, if_neg (UInt64.not_lt.mpr hle), ?_⟩
  rw [UInt64.toNat_sub_of_le _ _ hle]
  rfl

theorem pow2_eq (h : m ≠ 0) : pow2 m = .ok (isPow2 m.toNat) := by
  have hpos : m.toNat ≠ 0 := fun h' => h ((toNat_eq_zero_iff m).mp h')
  obtain ⟨d, hd, hdn⟩ := checkedSub_one h
  rw [pow2, if_pos h, hd, ok_bind, Except.ok.injEq, Bool.eq_iff_iff, beq_iff_eq, isPow2_iff,
    ← UInt64.toNat_inj, UInt64.toNat_and, hdn, show (0 : UInt64).toNat = 0 from rfl]
  exact Nat.and_sub_one_eq_zero_iff_isPowerOfTwo hpos

/-! ## The call on natural numbers -/

/-- The code the two-root loop ends in. -/
def loopCode (m n : Nat) (oldRoot newRoot : Digest) (proof : List Digest) : Code :=
  match seedNodes m oldRoot proof with
  | [] => .proofTooShort
  | seed :: rest =>
    match proofLoop (bothLeft (node sha256)) (bothRight (node sha256))
        (dropOdd (m - 1) (n - 1)).1 (dropOdd (m - 1) (n - 1)).2 (seed, seed) rest with
    | none => .proofTooLong
    | some (sn, fr, sr) =>
      if sn ≠ 0 then .proofTooShort
      else if fr ≠ oldRoot then .rootMismatch
      else if sr ≠ newRoot then .rootMismatch
      else .ok

theorem verifyConsistency_genesis (oldRoot newRoot : Digest) (proof : List Digest) :
    verifyConsistency sha256 0 n oldRoot newRoot proof = if proof.length ≠ 0 then .ok .proofNotEmpty
        else if oldRoot ≠ emptyRoot then .ok .rootMismatch else if n = 0 ∧ newRoot ≠ emptyRoot then .ok .rootMismatch
        else .ok .ok := by
  rw [verifyConsistency, if_neg (UInt64.not_lt.mpr (UInt64.zero_le ..)), if_pos rfl]

/-- **NO REVERT**: between different sizes the call returns the code of the loop. -/
theorem verifyConsistency_proper (h0 : m ≠ 0) (hlt : m < n) (oldRoot newRoot : Digest) (hproof : proof ≠ []) :
    verifyConsistency sha256 m n oldRoot newRoot proof
      = .ok (loopCode sha256 m.toNat n.toNat oldRoot newRoot proof) := by
  have hltn : m.toNat < n.toNat := UInt64.lt_iff_toNat_lt.mp hlt
  have hn0 : n ≠ 0 := by
    rw [ne_eq, ← toNat_eq_zero_iff]
    omega
  have hne : m ≠ n := by
    rw [ne_eq, ← UInt64.toNat_inj]
    omega
  obtain ⟨fn, hfn, hfnn⟩ := checkedSub_one h0
  obtain ⟨sn, hsn, hsnn⟩ := checkedSub_one hn0
  have hstrip := stripOnes_toNat fn sn
  rw [hfnn, hsnn] at hstrip
  rw [verifyConsistency, if_neg (UInt64.not_lt.mpr (UInt64.le_of_lt hlt)), if_neg h0, if_neg hne,
    if_neg (by rwa [List.length_eq_zero_iff]), pow2_eq h0, ok_bind, hfn, ok_bind, hsn, ok_bind, loopCode, ← hstrip]
  cases hs : seedNodes m.toNat oldRoot proof with
  | nil =>
    rw [seedNodes] at hs
    split at hs
    · cases hs
    · exact absurd hs hproof
  | cons seed rest =>
    rw [seedNodes] at hs
    rw [hs]
    simp only
    rw [← walk_toNat]
    cases walk sha256 (stripOnes fn sn).1 (stripOnes fn sn).2 seed seed rest with
    | none => rfl
    | some r =>
      simp only [Option.map_some, ne_eq, toNat_eq_zero_iff]
      split
      · rfl
      · split
        · rfl
        · split
          · rfl
          · rfl

theorem loopCode_ok_iff {m n : Nat} (hle : m ≤ n) (oldRoot newRoot : Digest) (proof : List Digest) :
    loopCode sha256 m n oldRoot newRoot proof = .ok
      ↔ consistencyWalk (node sha256) m n oldRoot proof = some (oldRoot, newRoot) := by
  rw [loopCode, consistencyWalk]
  cases seedNodes m oldRoot proof with
  | nil => simp
  | cons seed rest =>
    simp only
    rw [← proofLoop_iff_climb rest (dropOdd_le (show m - 1 ≤ n - 1 by omega))]
    split
    · rename_i h
      rw [h]
      simp
    · rename_i sn fr sr h
      rw [h, Option.some.injEq, Prod.mk.injEq, Prod.mk.injEq]
      by_cases hs : sn = 0
      · by_cases hf : fr = oldRoot
        · by_cases hn : sr = newRoot <;> simp [hs, hf, hn]
        · simp [hs, hf]
      · simp [hs]

/-- **SOUNDNESS** of an accepted pair of sizes: on a tree with the new root and no
    second preimage, the old root is the hash of the prefix. -/
theorem verifyConsistency_sound (h0 : m ≠ 0) (hlt : m < n) {oldRoot newRoot : Digest}
    (hok : verifyConsistency sha256 m n oldRoot newRoot proof = .ok .ok) {xs : List Digest}
    (hcf : CollisionFree (node sha256) xs) (hlen : xs.length = n.toNat)
    (hroot : mth (node sha256) emptyRoot xs = newRoot) : mth (node sha256) emptyRoot (xs.take m.toNat) = oldRoot := by
  have hltn : m.toNat < n.toNat := UInt64.lt_iff_toNat_lt.mp hlt
  have hpos : m.toNat ≠ 0 := fun h' => h0 ((toNat_eq_zero_iff m).mp h')
  have hproof : proof ≠ [] := by
    rintro rfl
    rw [verifyConsistency, if_neg (UInt64.not_lt.mpr (UInt64.le_of_lt hlt)), if_neg h0,
      if_neg (UInt64.ne_of_lt hlt)] at hok
    cases hok
  rw [verifyConsistency_proper sha256 h0 hlt oldRoot newRoot hproof, Except.ok.injEq,
    loopCode_ok_iff sha256 (by omega), ← hlen, ← hroot, consistencyWalk_iff emptyRoot hcf (by omega) (by omega)] at hok
  exact hok.1.symm

/-- No input makes the call revert. -/
theorem verifyConsistency_total (m n : UInt64) (oldRoot newRoot : Digest)
    (proof : List Digest) : ∃ c, verifyConsistency sha256 m n oldRoot newRoot proof = .ok c := by
  by_cases hgt : n < m
  · exact ⟨_, if_pos hgt⟩
  · by_cases h0 : m = 0
    · subst h0
      rw [verifyConsistency_genesis]
      split
      · exact ⟨_, rfl⟩
      · split
        · exact ⟨_, rfl⟩
        · split
          · exact ⟨_, rfl⟩
          · exact ⟨_, rfl⟩
    · by_cases heq : m = n
      · rw [verifyConsistency, if_neg hgt, if_neg h0, if_pos heq]
        split
        · exact ⟨_, rfl⟩
        · split
          · exact ⟨_, rfl⟩
          · exact ⟨_, rfl⟩
      · by_cases hp : proof = []
        · rw [verifyConsistency, if_neg hgt, if_neg h0, if_neg heq, if_pos (List.length_eq_zero_iff.mpr hp)]
          exact ⟨_, rfl⟩
        · exact ⟨_, verifyConsistency_proper sha256 h0
            (UInt64.lt_of_le_of_ne (UInt64.not_lt.mp hgt) heq) oldRoot newRoot hp⟩

end Rfc9162Contract
