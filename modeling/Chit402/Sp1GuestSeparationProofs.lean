import Chit402.Sp1GuestReplayProofs

/-! # What the guest's hash tells apart

    Word number `i` is rotated by `7 i` bytes and the words are xored, so
    the hash depends on no more than one byte for each of the 32 places.
    A change to one word always shows; changes to two words can cancel. -/

namespace Sp1GuestSeparation

open ExceptFlow Sp1Guest Sp1GuestAccept Sp1GuestAmounts Sp1GuestReplay

variable {keccak256 : List UInt8 → Hash256} {a b : List Hash256} {i : ℕ}

theorem columnFrom_append (place : Fin 32) :
    columnFrom i place (a ++ b) = columnFrom i place a ^^^ columnFrom (i + a.length) place b := by
  induction a generalizing i with
  | nil => exact UInt8.zero_xor.symm
  | cons word rest ih =>
    rw [List.cons_append, columnFrom, ih, columnFrom, UInt8.xor_assoc, List.length_cons, Nat.add_right_comm,
      Nat.add_assoc i]

theorem rotate_back (place shift : Fin 32) : place + shift - shift = place := by omega

theorem cancel_one_iff (before after : List Hash256) (x y : Hash256) :
    Cancel (before ++ x :: after) (before ++ y :: after) ↔ x = y := by
  constructor
  · intro h
    funext place
    have hplace := h (place + Fin.ofNat 32 ((0 + before.length) * 7))
    rw [columnFrom_append, columnFrom_append, UInt8.xor_right_inj, columnFrom, columnFrom, UInt8.xor_left_inj,
      rotate_back] at hplace
    exact hplace
  · intro h place
    rw [h]

/-- **In every place of every list exactly one word gives the hash of a list.** -/
theorem one_word_decides (before after target : List Hash256) :
    ∃! x, poseidonHash (before ++ x :: after) = poseidonHash target := by
  have hback (place shift : Fin 32) : place - shift + shift = place := by omega
  let shift := Fin.ofNat 32 ((0 + before.length) * 7)
  obtain ⟨x, hx⟩ : ∃ x, poseidonHash (before ++ x :: after) = poseidonHash target := by
    refine ⟨fun place => columnFrom 0 (place + shift) before ^^^ columnFrom 0 (place + shift) target
      ^^^ columnFrom (0 + before.length + 1) (place + shift) after, ?_⟩
    refine poseidonHash_eq_iff_cancel.2 fun place => ?_
    rw [columnFrom_append, columnFrom, hback]
    -- what the other words put in the place stands on both sides of the new word
    rw [UInt8.xor_assoc, UInt8.xor_self, UInt8.xor_zero, ← UInt8.xor_assoc, UInt8.xor_self, UInt8.zero_xor]
  refine ⟨x, hx, ?_⟩
  intro y hy
  exact (cancel_one_iff before after y x).1 (poseidonHash_eq_iff_cancel.1 (hy.trans hx.symm))

/-! ## The fields -/

/-- What is to tell two burns apart. -/
def burnFields (e : ReverseBurnPublicInputs × ReverseBurnPrivateInputs) :=
  (e.1.userAddress, e.1.nonce, e.1.thetaRecipient, e.1.burnedAmount, e.2.txHash)

def taskFields (e : AITaskPublicInputs × AITaskPrivateInputs) :=
  (e.1.taskIdHash, e.1.senderHash, e.1.nonce, e.1.blockHeight, e.2.sourceTxHash)

def messageFields (e : A2AMessagePublicInputs × A2AMessagePrivateInputs) :=
  (e.2.senderIdentity, e.1.payloadHash, e.1.nonce, e.1.timestamp, e.2.senderAddress)

def leafFields (e : PublicInputs × PrivateInputs) :=
  (e.2.txHash, e.2.senderAddress, e.1.vaultAddress, e.2.grossAmount, e.1.blockNumber, e.2.txIndex)

/-! ## Two accepted actions -/

/-- The commitment of a batch of two or more is the hash of its nullifiers. -/
theorem batchCommitment_of_main {pub : UnifiedBatchPublicInputs} {priv : UnifiedBatchPrivateInputs}
    {out : UnifiedBatchOutput} (h : main keccak256 pub priv = .ok out) (hsize : 2 ≤ pub.batchSize) :
    out.batchCommitment = poseidonHash out.nullifiers := by
  rw [main, unit_bind_ok_iff, unit_bind_ok_iff] at h
  obtain ⟨-, -, hrest⟩ := h
  obtain ⟨st, -, hrest⟩ := bind_iff.mp hrest
  obtain ⟨commitment, hcommitment, hout⟩ := bind_iff.mp hrest
  cases hout
  have hmany : pub.batchSize ≠ 1 := by
    intro hone
    rw [hone] at hsize
    exact absurd hsize (by decide)
  rw [batchCommitment, if_neg hmany] at hcommitment
  exact (Except.ok.inj hcommitment).symm

theorem differ_iff {differ : Prop} {nullifier nullifier' : Hash256} (h : nullifier = poseidonHash a)
    (h' : nullifier' = poseidonHash b) : (differ → nullifier ≠ nullifier') ↔ (differ → ¬ Cancel a b) := by
  rw [h, h', Ne, poseidonHash_eq_iff_cancel]

/-- **Two actions that differ have different hashes exactly when their differences do not cancel.** -/
theorem separated_iff (keccak256 : List UInt8 → Hash256) :
    (∀ e e' nullifier nullifier', validateReverseBurn e.1 e.2 = .ok nullifier →
      validateReverseBurn e'.1 e'.2 = .ok nullifier' → ((burnFields e ≠ burnFields e' → nullifier ≠ nullifier')
        ↔ (burnFields e ≠ burnFields e' →
          ¬ Cancel (reverseBurnNullifierInputs e.1 e.2) (reverseBurnNullifierInputs e'.1 e'.2))))
    ∧ (∀ e e' version version' hashes hashes', validateAiTask keccak256 e.1 e.2 version = .ok hashes →
      validateAiTask keccak256 e'.1 e'.2 version' = .ok hashes' →
      ((taskFields e ≠ taskFields e' → hashes.nullifier ≠ hashes'.nullifier) ↔ (taskFields e ≠ taskFields e' →
          ¬ Cancel (taskNullifierInputs e.1 e.2) (taskNullifierInputs e'.1 e'.2))))
    ∧ (∀ e e' nullifier nullifier', validateA2aMessage e.1 e.2 = .ok nullifier →
      validateA2aMessage e'.1 e'.2 = .ok nullifier' → ((messageFields e ≠ messageFields e' → nullifier ≠ nullifier')
        ↔ (messageFields e ≠ messageFields e' →
          ¬ Cancel (messageNullifierInputs e.1 e.2) (messageNullifierInputs e'.1 e'.2))))
    ∧ (∀ e e', (leafFields e ≠ leafFields e' → txLeaf e.1 e.2 ≠ txLeaf e'.1 e'.2)
      ↔ (leafFields e ≠ leafFields e' → ¬ Cancel (leafInputs e.1 e.2) (leafInputs e'.1 e'.2)))
    ∧ (∀ pub priv out pub' priv' out', main keccak256 pub priv = .ok out → main keccak256 pub' priv' = .ok out' →
      2 ≤ pub.batchSize → 2 ≤ pub'.batchSize →
      ((out.nullifiers ≠ out'.nullifiers → out.batchCommitment ≠ out'.batchCommitment)
        ↔ (out.nullifiers ≠ out'.nullifiers → ¬ Cancel ((nullifierInputs pub priv).map poseidonHash)
          ((nullifierInputs pub' priv').map poseidonHash)))) := by
  refine ⟨?_, ?_, ?_, ?_, ?_⟩
  · intro e e' nullifier nullifier' h h'
    exact differ_iff (validateReverseBurn_ok h).2 (validateReverseBurn_ok h').2
  · intro e e' version version' hashes hashes' h h'
    exact differ_iff (validateAiTask_ok h).2 (validateAiTask_ok h').2
  · intro e e' nullifier nullifier' h h'
    exact differ_iff (validateA2aMessage_ok h) (validateA2aMessage_ok h')
  · intro e e'
    exact differ_iff rfl rfl
  · intro pub priv out pub' priv' out' h h' hsize hsize'
    rw [← out_nullifiers h, ← out_nullifiers h']
    exact differ_iff (batchCommitment_of_main h hsize) (batchCommitment_of_main h' hsize')

/-! ## Two burns under one nullifier -/

/-- The one-TFUEL burn of a user whose first byte is `u`, in a transaction whose fifth byte is `t`. -/
def burn (u t : UInt8) : ReverseBurnPublicInputs × ReverseBurnPrivateInputs :=
  ({ userAddress := fun i => if i = 0 then u else 1, thetaRecipient := fun _ => 2,
     burnedAmount := ⟨padded 32 (995 * 10 ^ 15)⟩, nonce := 0, blockHeight := 7, timestamp := 1700000000,
     chainId := fun _ => 3 },
   { txHash := fun i => if i = 4 then t else 4, eventIndex := 0, feeAmount := ⟨padded 32 (5 * 10 ^ 15)⟩,
     grossAmount := ⟨padded 32 (10 ^ 18)⟩ })

/-- What the nullifier of a sample burn is hashed from. -/
def burnInputs (u t : UInt8) : List Hash256 := reverseBurnNullifierInputs (burn u t).1 (burn u t).2

theorem burns_accepted : validateReverseBurn (burn 1 4).1 (burn 1 4).2 = .ok (poseidonHash (burnInputs 1 4))
    ∧ validateReverseBurn (burn 0 5).1 (burn 0 5).2 = .ok (poseidonHash (burnInputs 0 5))
    ∧ validateReverseBurn (burn 1 5).1 (burn 1 5).2 = .ok (poseidonHash (burnInputs 1 5))
    ∧ ∀ place, columnFrom 0 place (burnInputs 1 4) = columnFrom 0 place (burnInputs 0 5) := by decide +kernel

theorem burns_collide : ∃ nullifier, validateReverseBurn (burn 1 4).1 (burn 1 4).2 = .ok nullifier
      ∧ validateReverseBurn (burn 0 5).1 (burn 0 5).2 = .ok nullifier
      ∧ (burn 1 4).1.userAddress ≠ (burn 0 5).1.userAddress ∧ (burn 1 4).2.txHash ≠ (burn 0 5).2.txHash := by
  obtain ⟨hburn, hother, -, hcancel⟩ := burns_accepted
  rw [← poseidonHash_eq_iff_cancel.mpr hcancel] at hother
  exact ⟨_, hburn, hother, by decide, by decide⟩

/-- The task of one TFUEL paid in a transaction whose first byte is `t`. -/
def task (t : UInt8) : AITaskPublicInputs × AITaskPrivateInputs :=
  ({ taskType := .capabilityQuery, sourceChain := .theta, destinationChain := .theta, taskIdHash := fun _ => 1,
     senderHash := fun _ => 2, netAmount := ⟨padded 32 (995 * 10 ^ 15)⟩, feeAmount := ⟨padded 32 (5 * 10 ^ 15)⟩,
     feeBps := 50, outputHash := fun _ => 0, blockHeight := 7, timestamp := 1700000000, nonce := 0,
     paymentCommitment := fun _ => 0 },
   { grossAmount := ⟨padded 32 (10 ^ 18)⟩, sourceTxHash := fun i => if i = 0 then t else 4, modelIdHash := fun _ => 0,
     inputHash := fun _ => 0, providerHash := fun _ => 0, executionDurationMs := 0, ibcChannelHash := fun _ => 0,
     taoEvmTarget := fun _ => 0, paymentRefHash := fun _ => 0, paymentRail := 0 })

/-- A query whose payload hash starts with `t`. -/
def message (t : UInt8) : A2AMessagePublicInputs × A2AMessagePrivateInputs :=
  ({ msgType := .capabilityQuery, senderChain := .theta, recipientChain := .theta,
     payloadHash := fun i => if i = 0 then t else 4, nonce := 0, escrowAmount := ⟨fun _ => 0⟩, timestamp := 1700000000,
     ttl := 3600, blockHeight := 7 },
   { senderIdentity := fun _ => 1, senderAddress := fun _ => 2, recipientAddress := fun _ => 3,
     escrowTxHash := fun _ => 0, ibcChannelHash := fun _ => 0, payloadSize := 64 })

theorem queries_accepted :
    ((validateAiTask noKeccak (task 4).1 (task 4).2 1).isOk = true
      ∧ (validateAiTask noKeccak (task 5).1 (task 5).2 1).isOk = true)
    ∧ (validateA2aMessage (message 4).1 (message 4).2).isOk = true
      ∧ (validateA2aMessage (message 5).1 (message 5).2).isOk = true := by decide +kernel

theorem ok_of_isOk {α : Type} {x : Except String α} (h : x.isOk = true) : ∃ y, x = .ok y := by
  cases x with
  | error e => cases h
  | ok y => exact ⟨y, rfl⟩

/-- Two burns, tasks, messages, leaves and batches that differ, each pair under two hashes. -/
theorem actions_separated : ∃ burned burned' tasked tasked' sent sent' out out',
    (validateReverseBurn (burn 1 4).1 (burn 1 4).2 = .ok burned
      ∧ validateReverseBurn (burn 1 5).1 (burn 1 5).2 = .ok burned' ∧ burned ≠ burned')
    ∧ (validateAiTask noKeccak (task 4).1 (task 4).2 1 = .ok tasked
      ∧ validateAiTask noKeccak (task 5).1 (task 5).2 1 = .ok tasked' ∧ tasked.nullifier ≠ tasked'.nullifier)
    ∧ (validateA2aMessage (message 4).1 (message 4).2 = .ok sent
      ∧ validateA2aMessage (message 5).1 (message 5).2 = .ok sent' ∧ sent ≠ sent')
    ∧ txLeaf (mined 4 6).1 (mined 4 6).2 ≠ txLeaf (mined 5 6).1 (mined 5 6).2
    ∧ mainOf (minedPair 4 5) = .ok out ∧ mainOf (minedPair 5 8) = .ok out'
    ∧ out.nullifiers ≠ out'.nullifiers ∧ out.batchCommitment ≠ out'.batchCommitment := by
  obtain ⟨hburn, -, hburn', -⟩ := burns_accepted
  obtain ⟨tasked, htask⟩ := ok_of_isOk queries_accepted.1.1
  obtain ⟨tasked', htask'⟩ := ok_of_isOk queries_accepted.1.2
  obtain ⟨sent, hsent⟩ := ok_of_isOk queries_accepted.2.1
  obtain ⟨sent', hsent'⟩ := ok_of_isOk queries_accepted.2.2
  obtain ⟨⟨out, hout⟩, out', hout'⟩ := minedPair_accepted
  obtain ⟨burns, tasks, messages, leaves, batches⟩ := separated_iff noKeccak
  have hdiffer : out.nullifiers ≠ out'.nullifiers := by
    rw [out_nullifiers hout, out_nullifiers hout']
    intro hsame
    exact absurd (congrFun (List.cons.inj hsame).1 0) (by decide +kernel)
  refine ⟨_, _, tasked, tasked', sent, sent', out, out', ⟨hburn, hburn', ?_⟩, ⟨htask, htask', ?_⟩, ⟨hsent, hsent', ?_⟩,
    ?_, hout, hout', hdiffer, ?_⟩
  · refine (burns _ _ _ _ hburn hburn').mpr (fun _ hcancel => ?_) (by decide)
    exact absurd (hcancel 0) (by decide +kernel)
  · refine (tasks _ _ _ _ _ _ htask htask').mpr (fun _ hcancel => ?_) (by decide)
    exact absurd (hcancel 28) (by decide +kernel)
  · refine (messages _ _ _ _ hsent hsent').mpr (fun _ hcancel => ?_) (by decide)
    exact absurd (hcancel 7) (by decide +kernel)
  · refine (leaves _ _).mpr (fun _ hcancel => ?_) (by decide)
    exact absurd (hcancel 0) (by decide +kernel)
  · refine (batches _ _ _ _ _ _ hout hout' (by decide) (by decide)).mpr (fun _ hcancel => ?_) hdiffer
    exact absurd (hcancel 0) (by decide +kernel)

end Sp1GuestSeparation
