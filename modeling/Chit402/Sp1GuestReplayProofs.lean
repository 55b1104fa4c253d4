import Chit402.Sp1GuestAmountsProofs

/-! # Replay protection in the guest

    The hash is a rotated xor of its inputs under a byte permutation, so
    nullifiers agree exactly when the differences of their inputs cancel.  A deposit is checked
    against the Merkle root only where it comes with a path, its nullifier
    starts from a hash the prover picks, and no loop compares two
    nullifiers: what this leaves of one mint per deposit is stated below. -/

namespace Sp1GuestReplay

open Sp1Guest Sp1GuestAccept Sp1GuestAmounts

/-! ## The hash -/

/-- The rotated xor of the inputs, before the bytes are scrambled. -/
def xored (inputs : List Hash256) : Hash256 := absorbFrom 0 (fun _ => 0) inputs

theorem mul251_mul51 (x : UInt8) : x * 251 * 51 = x := by
  have hunit : (251 : UInt8) * 51 = 1 := by decide
  rw [UInt8.mul_assoc, hunit, UInt8.mul_one]

theorem scramble_injective : Function.Injective scramble := by
  intro a b h
  funext i
  have hbyte : a i * 251 = b i * 251 := (UInt8.add_left_inj _).mp (congrFun h i)
  rw [← mul251_mul51 (a i), hbyte, mul251_mul51]

theorem poseidonHash_eq_iff {a b : List Hash256} : poseidonHash a = poseidonHash b ↔ xored a = xored b :=
  scramble_injective.eq_iff

/-- What the rotated words put in one place, from word number `i`. -/
def columnFrom : ℕ → Fin 32 → List Hash256 → UInt8
  | _, _, [] => 0
  | i, place, word :: rest => word (place - Fin.ofNat 32 (i * 7)) ^^^ columnFrom (i + 1) place rest

/-- The two lists put the same byte in every place: where they differ, the differences cancel. -/
def Cancel (a b : List Hash256) : Prop := ∀ place, columnFrom 0 place a = columnFrom 0 place b

theorem absorbFrom_apply {i : ℕ} (result : Hash256) (inputs : List Hash256) (place : Fin 32) :
    absorbFrom i result inputs place = result place ^^^ columnFrom i place inputs := by
  induction inputs generalizing i result with
  | nil => exact UInt8.xor_zero.symm
  | cons input rest ih =>
    rw [absorbFrom, ih, columnFrom, absorb, UInt8.xor_assoc]

/-- **The hash separates two lists exactly when their differences do not cancel.** -/
theorem poseidonHash_eq_iff_cancel {a b : List Hash256} : poseidonHash a = poseidonHash b ↔ Cancel a b := by
  rw [poseidonHash_eq_iff, xored, xored, funext_iff]
  apply forall_congr'
  intro place
  rw [absorbFrom_apply, absorbFrom_apply, UInt8.zero_xor, UInt8.zero_xor]

variable {a b : Hash256} {e : PublicInputs × PrivateInputs} {i : ℕ}

theorem absorbFrom_inj {inputs : List Hash256} : absorbFrom i a inputs = absorbFrom i b inputs ↔ a = b := by
  induction inputs generalizing i a b with
  | nil => exact Iff.rfl
  | cons input rest ih =>
    rw [absorbFrom, absorbFrom, ih]
    constructor
    · intro h
      funext place
      exact (UInt8.xor_left_inj _).mp (congrFun h place)
    · intro h
      rw [h]

theorem rotate_first : ∀ place : Fin 32, place - Fin.ofNat 32 (0 * 7) = place := by decide

theorem poseidonHash_cons_inj {rest : List Hash256} : poseidonHash (a :: rest) = poseidonHash (b :: rest) ↔ a = b := by
  rw [poseidonHash_eq_iff, xored, xored, absorbFrom, absorbFrom, absorbFrom_inj]
  constructor
  · intro h
    funext place
    have hplace := (UInt8.xor_right_inj _).mp (congrFun h place)
    rw [rotate_first] at hplace
    exact hplace
  · intro h
    rw [h]

/-! ## One mint per deposit -/

variable {keccak256 : List UInt8 → Hash256} {pub pub' : UnifiedBatchPublicInputs}
  {priv priv' : UnifiedBatchPrivateInputs} {out out' : UnifiedBatchOutput}

/-- The forward deposits of a batch. -/
def depositEntries (pub : UnifiedBatchPublicInputs) (priv : UnifiedBatchPrivateInputs) :
    List (PublicInputs × PrivateInputs) :=
  if pub.proofType = .forwardDeposit then entries pub.batchSize pub.deposits priv.deposits else []

/-- Every leaf reaches the public root by the path of its entry. -/
def LeavesProved (pub : UnifiedBatchPublicInputs) (priv : UnifiedBatchPrivateInputs) : Prop :=
  ∀ e ∈ depositEntries pub priv,
    verifyMerkleProof (txLeaf e.1 e.2) e.1.merkleRoot e.2.merkleProof e.2.merklePathIndices = true

/-- Two entries that describe one transaction. -/
def SameTransaction (e e' : PublicInputs × PrivateInputs) : Prop :=
  e.2.txHash = e'.2.txHash ∧ e.2.txIndex = e'.2.txIndex ∧ e.1.blockNumber = e'.1.blockNumber
    ∧ e.1.vaultAddress = e'.1.vaultAddress

/-- Entries of one transaction are committed under one nullifier. -/
def NullifierBound (pub : UnifiedBatchPublicInputs) (priv : UnifiedBatchPrivateInputs) (out : UnifiedBatchOutput)
    (pub' : UnifiedBatchPublicInputs) (priv' : UnifiedBatchPrivateInputs) (out' : UnifiedBatchOutput) : Prop :=
  ∀ (i j : ℕ) e e' nullifier nullifier', (depositEntries pub priv)[i]? = some e →
    out.nullifiers[i]? = some nullifier → (depositEntries pub' priv')[j]? = some e' →
    out'.nullifiers[j]? = some nullifier' → SameTransaction e e' → nullifier = nullifier'

/-- The three parts of one mint per deposit, for a batch beside another. -/
structure MintsOnce (pub : UnifiedBatchPublicInputs) (priv : UnifiedBatchPrivateInputs) (out : UnifiedBatchOutput)
    (pub' : UnifiedBatchPublicInputs) (priv' : UnifiedBatchPrivateInputs) (out' : UnifiedBatchOutput) : Prop where
  leaves : LeavesProved pub priv
  bound : NullifierBound pub priv out pub' priv' out'
  distinct : out.nullifiers.Nodup

/-- What the prover has to supply of its own accord. -/
structure OncePresented (pub : UnifiedBatchPublicInputs) (priv : UnifiedBatchPrivateInputs)
    (pub' : UnifiedBatchPublicInputs) (priv' : UnifiedBatchPrivateInputs) : Prop where
  path : ∀ e ∈ depositEntries pub priv, e.2.merkleProof = [] → txLeaf e.1 e.2 = e.1.merkleRoot
  identity : ∀ e ∈ depositEntries pub priv, ∀ e' ∈ depositEntries pub' priv', SameTransaction e e' →
    e.2.identityNullifier = e'.2.identityNullifier
  fresh : (nullifierInputs pub priv).Pairwise fun a b => ¬ Cancel a b

theorem out_nullifiers (h : main keccak256 pub priv = .ok out) :
    out.nullifiers = (nullifierInputs pub priv).map poseidonHash := by
  obtain ⟨st, -, hst, hout, -⟩ := main_ok h
  rw [hout]
  exact (processBatch_ok hst).2

theorem depositEntries_checked (h : main keccak256 pub priv = .ok out) :
    ∀ e ∈ depositEntries pub priv, DepositChecked e.1 e.2 := by
  intro e he
  obtain ⟨st, -, hst, -, -⟩ := main_ok h
  have hchecked := (processBatch_ok hst).1
  rw [depositEntries] at he
  split at he
  · rename_i htype
    rw [EntriesChecked, htype] at hchecked
    exact hchecked e he
  · cases he

theorem nullifier_of_deposit (h : main keccak256 pub priv = .ok out) (he : (depositEntries pub priv)[i]? = some e) :
    out.nullifiers[i]? = some (poseidonHash (depositNullifierInputs e.1 e.2)) := by
  rw [depositEntries] at he
  split at he
  · rename_i htype
    rw [out_nullifiers h, nullifierInputs, htype]
    dsimp only
    rw [List.getElem?_map, List.getElem?_map, he]
    rfl
  · cases he

theorem nullifier_eq_iff {e' : PublicInputs × PrivateInputs} (hsame : SameTransaction e e') :
    poseidonHash (depositNullifierInputs e.1 e.2) = poseidonHash (depositNullifierInputs e'.1 e'.2)
      ↔ e.2.identityNullifier = e'.2.identityNullifier := by
  obtain ⟨htx, -, hblock, hvault⟩ := hsame
  rw [depositNullifierInputs, depositNullifierInputs, htx, hblock, hvault]
  exact poseidonHash_cons_inj

theorem leavesProved_iff (h : main keccak256 pub priv = .ok out) : LeavesProved pub priv
      ↔ ∀ e ∈ depositEntries pub priv, e.2.merkleProof = [] → txLeaf e.1 e.2 = e.1.merkleRoot := by
  apply forall₂_congr
  intro e he
  by_cases hpath : e.2.merkleProof = []
  · rw [verifyMerkleProof, if_pos hpath, decide_eq_true_iff]
    exact ⟨fun hleaf _ => hleaf, fun hleaf => hleaf hpath⟩
  · constructor
    · intro _ hempty
      exact absurd hempty hpath
    · intro _
      exact (depositEntries_checked h e he).path hpath

theorem nullifierBound_iff (h : main keccak256 pub priv = .ok out) (h' : main keccak256 pub' priv' = .ok out') :
    NullifierBound pub priv out pub' priv' out'
      ↔ ∀ e ∈ depositEntries pub priv, ∀ e' ∈ depositEntries pub' priv', SameTransaction e e' →
        e.2.identityNullifier = e'.2.identityNullifier := by
  constructor
  · intro hbound e he e' he' hsame
    obtain ⟨i, hi⟩ := List.mem_iff_getElem?.mp he
    obtain ⟨j, hj⟩ := List.mem_iff_getElem?.mp he'
    exact (nullifier_eq_iff hsame).mp
      (hbound i j e e' _ _ hi (nullifier_of_deposit h hi) hj (nullifier_of_deposit h' hj) hsame)
  · intro hidentity i j e e' nullifier nullifier' hi hn hj hn' hsame
    rw [nullifier_of_deposit h hi] at hn
    rw [nullifier_of_deposit h' hj] at hn'
    cases hn
    cases hn'
    exact (nullifier_eq_iff hsame).mpr
      (hidentity e (List.mem_of_getElem? hi) e' (List.mem_of_getElem? hj) hsame)

theorem distinct_iff (h : main keccak256 pub priv = .ok out) :
    out.nullifiers.Nodup ↔ (nullifierInputs pub priv).Pairwise fun a b => ¬ Cancel a b := by
  rw [out_nullifiers h, List.Nodup, List.pairwise_map]
  apply List.Pairwise.iff
  intro a b
  exact not_congr poseidonHash_eq_iff_cancel

/-- **ONE MINT PER DEPOSIT**: exactly where the prover leaves no path out, keeps to one identity
    nullifier per transaction and lists no two entries whose nullifier inputs collide. -/
theorem mints_once_iff (h : main keccak256 pub priv = .ok out) (h' : main keccak256 pub' priv' = .ok out') :
    MintsOnce pub priv out pub' priv' out' ↔ OncePresented pub priv pub' priv' := by
  constructor
  · intro hm
    exact ⟨(leavesProved_iff h).mp hm.leaves, (nullifierBound_iff h h').mp hm.bound, (distinct_iff h).mp hm.distinct⟩
  · intro hp
    exact ⟨(leavesProved_iff h).mpr hp.path, (nullifierBound_iff h h').mpr hp.identity, (distinct_iff h).mpr hp.fresh⟩

/-! ## One transaction, three entries -/

/-- The one-TFUEL deposit of the transaction `tx` under the identity nullifier `byte`, with a path
    of one sibling. -/
def mined (tx byte : UInt8) : PublicInputs × PrivateInputs :=
  let d := deposit (10 ^ 18) (995 * 10 ^ 15) (5 * 10 ^ 15)
  let sibling : Hash256 := fun _ => 9
  let named : PrivateInputs := { d.2 with txHash := fun _ => tx, identityNullifier := fun _ => byte }
  ({ d.1 with merkleRoot := poseidonHash [txLeaf d.1 named, sibling] },
    { named with merkleProof := [sibling], merklePathIndices := [false] })

/-- Two transactions, each under the identity nullifier of its own. -/
def minedPair (tx tx' : UInt8) : List (PublicInputs × PrivateInputs) := [mined tx (2 * tx), mined tx' (2 * tx')]

/-- What the guest makes of a batch of deposits. -/
def mainOf (ds : List (PublicInputs × PrivateInputs)) : Except String UnifiedBatchOutput :=
  main noKeccak (depositPublic ds) (depositPrivate ds)

theorem minedPair_accepted :
    (∃ out, mainOf (minedPair 4 5) = .ok out) ∧ ∃ out, mainOf (minedPair 5 8) = .ok out :=
  ⟨exists_out (by decide +kernel), exists_out (by decide +kernel)⟩

/-- Two batches that share the transaction `5`. -/
theorem mints_once_proved :
    ∃ out out', mainOf (minedPair 4 5) = .ok out ∧ mainOf (minedPair 5 8) = .ok out'
      ∧ MintsOnce (depositPublic (minedPair 4 5)) (depositPrivate (minedPair 4 5)) out
        (depositPublic (minedPair 5 8)) (depositPrivate (minedPair 5 8)) out' := by
  obtain ⟨⟨out, hout⟩, out', hout'⟩ := minedPair_accepted
  refine ⟨out, out', hout, hout', (mints_once_iff hout hout').mpr ⟨?_, ?_, ?_⟩⟩
  · intro e he hempty
    exact absurd hempty (by revert e; decide +kernel)
  · have hidentity : ∀ e ∈ minedPair 4 5, ∀ e' ∈ minedPair 5 8, e.2.txHash 0 = e'.2.txHash 0 →
        e.2.identityNullifier = e'.2.identityNullifier := by decide +kernel
    intro e he e' he' hsame
    exact hidentity e he e' he' (congrFun hsame.1 0)
  · have hcolumn : (nullifierInputs (depositPublic (minedPair 4 5)) (depositPrivate (minedPair 4 5))).Pairwise
        fun a b => columnFrom 0 0 a ≠ columnFrom 0 0 b := by decide +kernel
    exact hcolumn.imp fun hne hcancel => hne (hcancel 0)

/-- The same transaction again, its path left out, under the identity nullifier `byte`. -/
def barePair (byte : UInt8) : List (PublicInputs × PrivateInputs) :=
  let d := deposit (10 ^ 18) (995 * 10 ^ 15) (5 * 10 ^ 15)
  let e := (d.1, { d.2 with identityNullifier := fun _ => byte })
  [e, e]

/-- Unproved leaves, one transaction under two nullifiers, and one nullifier listed twice. -/
theorem deposit_replayed :
    ∃ out out', main noKeccak (depositPublic (barePair 6)) (depositPrivate (barePair 6)) = .ok out
      ∧ main noKeccak (depositPublic (barePair 8)) (depositPrivate (barePair 8)) = .ok out'
      ∧ ¬ LeavesProved (depositPublic (barePair 6)) (depositPrivate (barePair 6))
      ∧ ¬ NullifierBound (depositPublic (barePair 6)) (depositPrivate (barePair 6)) out
        (depositPublic (barePair 8)) (depositPrivate (barePair 8)) out' ∧ ¬ out.nullifiers.Nodup := by
  obtain ⟨out, hout⟩ := exists_out
    (x := main noKeccak (depositPublic (barePair 6)) (depositPrivate (barePair 6))) (by decide +kernel)
  obtain ⟨out', hout'⟩ := exists_out
    (x := main noKeccak (depositPublic (barePair 8)) (depositPrivate (barePair 8))) (by decide +kernel)
  refine ⟨out, out', hout, hout', ?_, ?_, ?_⟩
  · intro hleaves
    have hfirst := hleaves _ List.mem_cons_self
    revert hfirst
    decide +kernel
  · intro hbound
    have hidentity := (nullifierBound_iff hout hout').mp hbound _ List.mem_cons_self _ List.mem_cons_self
      ⟨rfl, rfl, rfl, rfl⟩
    exact absurd (congrFun hidentity 0) (by decide)
  · rw [distinct_iff hout]
    intro hfresh
    exact (List.pairwise_cons.mp hfresh).1 _ List.mem_cons_self fun _ => rfl

end Sp1GuestReplay
