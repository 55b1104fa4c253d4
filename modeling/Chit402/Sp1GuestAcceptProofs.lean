import Chit402.Sp1GuestProofs

/-! # What an accepting run of the guest has checked

    The arithmetic of the amounts as arithmetic on integers, one lemma per
    validator for what its assertions leave, and one per proof type for
    what the loop of `main` leaves. -/

namespace Sp1GuestAccept

open ExceptFlow LittleEndian Sp1Guest

variable {nullifier : Hash256} {message : String} {u v : U256} {n w : ℕ}

/-- An assertion that goes through held. -/
theorem assert_ok_iff {c : Prop} [Decidable c] {u : Unit} : assert c message = .ok u ↔ c := by
  rw [assert]
  split
  · exact ⟨fun _ => ‹c›, fun _ => rfl⟩
  · exact ⟨fun h => (nomatch h), fun h => absurd h ‹¬ c›⟩

theorem unit_bind_ok_iff {β : Type} {x : Except String Unit} {f : Unit → Except String β} {b : β} :
    (x >>= f) = .ok b ↔ x = .ok () ∧ f () = .ok b := by
  rw [bind_iff]
  exact ⟨fun ⟨_, hx, hf⟩ => ⟨hx, hf⟩, fun ⟨hx, hf⟩ => ⟨(), hx, hf⟩⟩

/-- An `expect` that goes through had a value. -/
theorem expect_ok_iff {α : Type} {o : Option α} {a : α} : expect o message = .ok a ↔ o = some a := by
  cases o with
  | none => exact ⟨fun h => (nomatch h), fun h => (nomatch h)⟩
  | some b => exact ⟨fun h => congrArg some (Except.ok.inj h), fun h => congrArg Except.ok (Option.some.inj h)⟩

theorem pure_ok_iff {α : Type} {a b : α} : (pure a : Except String α) = .ok b ↔ a = b :=
  ⟨Except.ok.inj, congrArg Except.ok⟩

/-! ## Amounts as integers -/

/-- A padded number is its bytes and then zeros. -/
theorem ofFn_padded (hw : w ≤ 32) (n : ℕ) :
    List.ofFn (padded w n) = List.ofFn (fun i : Fin w => byteAt n i) ++ List.replicate (32 - w) 0 := by
  apply List.ext_getElem
  · rw [List.length_append, List.length_ofFn, List.length_ofFn, List.length_replicate]
    omega
  · intro i h1 h2
    rw [List.getElem_ofFn, List.getElem_append, padded]
    by_cases hi : i < w
    · rw [if_pos hi, dif_pos (by rw [List.length_ofFn]; exact hi), List.getElem_ofFn]
    · rw [if_neg hi, dif_neg (by rw [List.length_ofFn]; exact hi), List.getElem_replicate]

/-- A number padded from `w` bytes keeps those bytes. -/
theorem value_padded (hw : w ≤ 32) (n : ℕ) : U256.value ⟨padded w n⟩ = n % 256 ^ w := by
  rw [U256.value, ofFn_padded hw, value_append, value_ofFn_byteAt, value_replicate_zero, Nat.mul_zero, Nat.add_zero]

theorem asU128_lt (u : U256) : u.asU128 < 2 ^ 128 := by
  have h := value_lt ((List.ofFn u.bytes).take 16)
  rw [List.length_take, List.length_ofFn] at h
  exact h

/-- The high 16 bytes, which the arithmetic does not read. -/
def high (u : U256) : ℕ := LittleEndian.value ((List.ofFn u.bytes).drop 16)

/-- The value is its low half and, 128 bits up, its high half. -/
theorem value_eq (u : U256) : u.value = u.asU128 + 2 ^ 128 * high u := by
  have h := value_append ((List.ofFn u.bytes).take 16) ((List.ofFn u.bytes).drop 16)
  rw [List.take_append_drop, List.length_take, List.length_ofFn] at h
  exact h

theorem asU128_eq_mod (u : U256) : u.asU128 = u.value % 2 ^ 128 := by
  rw [value_eq, Nat.add_mul_mod_self_left, Nat.mod_eq_of_lt (asU128_lt u)]

/-- Up to 16 bytes the arithmetic reads a padded number whole. -/
theorem asU128_padded (hw : w ≤ 16) (n : ℕ) : U256.asU128 ⟨padded w n⟩ = n % 256 ^ w := by
  have hlt : n % 256 ^ w < 2 ^ 128 := calc
    n % 256 ^ w < 256 ^ w := Nat.mod_lt _ (Nat.pow_pos (by decide))
    _ ≤ 256 ^ 16 := Nat.pow_le_pow_right (by decide) hw
  rw [asU128_eq_mod, value_padded (by omega), Nat.mod_eq_of_lt hlt]

theorem value_ofU128 (hn : n < 2 ^ 128) : (U256.ofU128 n).value = n := by
  rw [U256.ofU128, value_padded (by decide)]
  exact Nat.mod_eq_of_lt hn

theorem asU128_of_lt (hu : u.value < 2 ^ 128) : u.asU128 = u.value := by
  rw [asU128_eq_mod, Nat.mod_eq_of_lt hu]

theorem asU128_ofU128 (hn : n < 2 ^ 128) : (U256.ofU128 n).asU128 = n := by
  rw [asU128_of_lt (by rw [value_ofU128 hn]; exact hn), value_ofU128 hn]

/-- A product that does not overflow is that of the low halves. -/
theorem checkedMul_eq_some {w : U256} (h : u.checkedMul v = some w) :
    u.asU128 * v.asU128 < 2 ^ 128 ∧ w = .ofU128 (u.asU128 * v.asU128) := by
  rw [U256.checkedMul] at h
  split at h
  · exact ⟨‹_›, (Option.some.inj h).symm⟩
  · cases h

/-- A difference that does not underflow is that of the low halves. -/
theorem checkedSub_eq_some {w : U256} (h : u.checkedSub v = some w) :
    v.asU128 ≤ u.asU128 ∧ w = .ofU128 (u.asU128 - v.asU128) := by
  rw [U256.checkedSub] at h
  split at h
  · exact ⟨‹_›, (Option.some.inj h).symm⟩
  · cases h

theorem checkedAdd_of_lt (h : u.asU128 + v.asU128 < 2 ^ 128) :
    u.checkedAdd v = some (.ofU128 (u.asU128 + v.asU128)) := if_pos h

/-! ## Fee and rest -/

/-- The split the guest computes from the low half of the gross amount. -/
structure FeeSplit (bps : ℕ) (gross fee rest : U256) : Prop where
  feeEq : fee = .ofU128 (gross.asU128 * bps / 10000)
  restEq : rest = .ofU128 (gross.asU128 - fee.asU128)

/-- A deposit or a burn that passes is split at 50 basis points. -/
theorem checkFee_ok {gross fee rest : U256} {underflow mismatch : String}
    (h : checkFee gross fee rest underflow mismatch = .ok ()) : FeeSplit 50 gross fee rest := by
  rw [checkFee] at h
  simp only [bind_iff, expect_ok_iff, assert_ok_iff] at h
  obtain ⟨times, hmul, _, hfee, check, hsub, hrest⟩ := h
  -- both sides of the split go by the low halves, which the checks have shown not to overflow
  obtain ⟨hlt, rfl⟩ := checkedMul_eq_some hmul
  obtain ⟨-, rfl⟩ := checkedSub_eq_some hsub
  have hfifty : fifty.asU128 = 50 := by decide +kernel
  rw [U256.div, asU128_ofU128 hlt, hfifty] at hfee
  exact ⟨hfee.symm, hrest.symm⟩

/-- A task is split at the basis points it states. -/
theorem calculateTaskFee_ok {gross fee rest : U256} {feeBps : UInt16}
    (h : calculateTaskFee gross feeBps = .ok (fee, rest)) : FeeSplit feeBps.toNat gross fee rest := by
  rw [calculateTaskFee] at h
  simp only [bind_iff, expect_ok_iff, assert_ok_iff, pure_ok_iff, Prod.mk.injEq] at h
  obtain ⟨_, -, times, hmul, net, hsub, rfl, rfl⟩ := h
  obtain ⟨hlt, rfl⟩ := checkedMul_eq_some hmul
  obtain ⟨-, rfl⟩ := checkedSub_eq_some hsub
  have hbps : U256.asU128 ⟨padded 2 feeBps.toNat⟩ = feeBps.toNat := by
    rw [asU128_padded (by decide)]
    exact Nat.mod_eq_of_lt feeBps.toNat_lt
  rw [hbps] at hlt
  constructor
  · rw [U256.div, hbps, asU128_ofU128 hlt]
  · rfl

section Split

variable {bps : ℕ} {gross fee rest : U256}

theorem FeeSplit.le (hbps : bps ≤ 10000) (gross : U256) : gross.asU128 * bps / 10000 ≤ gross.asU128 := by
  have hmul := Nat.mul_le_mul_left gross.asU128 hbps
  omega

theorem FeeSplit.value_fee (h : FeeSplit bps gross fee rest) (hbps : bps ≤ 10000) :
    fee.value = gross.asU128 * bps / 10000 := by
  have hle := FeeSplit.le hbps gross
  have hlt := asU128_lt gross
  rw [h.feeEq, value_ofU128 (by omega)]

/-- Fee and rest make up the low half of the gross amount. -/
theorem FeeSplit.value_rest (h : FeeSplit bps gross fee rest) (hbps : bps ≤ 10000) :
    rest.value + fee.value = gross.asU128 := by
  have hle := FeeSplit.le hbps gross
  have hlt := asU128_lt gross
  have hfee := h.value_fee hbps
  rw [h.restEq, asU128_of_lt (u := fee) (by omega), value_ofU128 (by omega)]
  omega

end Split

/-! ## Entries -/

theorem gte_iff : u.gte v = true ↔ v.asU128 ≤ u.asU128 := decide_eq_true_iff

theorem minDeposit_asU128 : minDeposit.asU128 = 10000000000000000 := by decide +kernel

/-- What the assertions leave of an accepted deposit. -/
structure DepositChecked (pub : PublicInputs) (priv : PrivateInputs) : Prop where
  split : FeeSplit 50 priv.grossAmount priv.feeAmount pub.netAmount
  minimum : 10000000000000000 ≤ priv.grossAmount.asU128
  path : priv.merkleProof ≠ [] →
    verifyMerkleProof (txLeaf pub priv) pub.merkleRoot priv.merkleProof priv.merklePathIndices = true

theorem validateDeposit_ok {pub : PublicInputs} {priv : PrivateInputs} (h : validateDeposit pub priv = .ok nullifier) :
    DepositChecked pub priv ∧ nullifier = poseidonHash (depositNullifierInputs pub priv) := by
  simp only [validateDeposit, unit_bind_ok_iff, assert_ok_iff, pure_ok_iff, gte_iff, minDeposit_asU128] at h
  -- only the split, the minimum and the path are used later
  obtain ⟨-, -, -, -, -, -, -, -, -, -, -, -, -, -, -, hfee, -, hmin, hpath, rfl⟩ := h
  exact ⟨⟨checkFee_ok hfee, hmin, hpath⟩, rfl⟩

theorem validateReverseBurn_ok {pub : ReverseBurnPublicInputs} {priv : ReverseBurnPrivateInputs}
    (h : validateReverseBurn pub priv = .ok nullifier) : (FeeSplit 50 priv.grossAmount priv.feeAmount pub.burnedAmount
      ∧ 10000000000000000 ≤ priv.grossAmount.asU128)
    ∧ nullifier = poseidonHash (reverseBurnNullifierInputs pub priv) := by
  simp only [validateReverseBurn, unit_bind_ok_iff, assert_ok_iff, pure_ok_iff, gte_iff, minDeposit_asU128] at h
  obtain ⟨-, -, -, -, -, -, -, -, -, -, -, hfee, hmin, rfl⟩ := h
  exact ⟨⟨checkFee_ok hfee, hmin⟩, rfl⟩

theorem validateFeeBurn_ok {pub : FeeBurnPublicInputs} (h : validateFeeBurn pub = .ok nullifier) :
    nullifier = poseidonHash (feeBurnNullifierInputs pub) := by
  simp only [validateFeeBurn, unit_bind_ok_iff, assert_ok_iff, pure_ok_iff] at h
  obtain ⟨-, -, -, -, -, -, rfl⟩ := h
  rfl

/-- What the assertions leave of an accepted task. -/
structure TaskChecked (pub : AITaskPublicInputs) (priv : AITaskPrivateInputs) : Prop where
  split : FeeSplit pub.feeBps.toNat priv.grossAmount pub.feeAmount pub.netAmount
  bps : 50 ≤ pub.feeBps.toNat ∧ pub.feeBps.toNat ≤ 100
  minimum : 2000 ≤ priv.grossAmount.asU128

theorem validateAiTask_ok {keccak256 : List UInt8 → Hash256} {pub : AITaskPublicInputs} {priv : AITaskPrivateInputs}
    {version : UInt8} {hashes : TaskHashes} (h : validateAiTask keccak256 pub priv version = .ok hashes) :
    TaskChecked pub priv ∧ hashes.nullifier = poseidonHash (taskNullifierInputs pub priv) := by
  have hmin2000 : (U256.fromU64 2000).asU128 = 2000 := by decide +kernel
  simp only [validateAiTask, unit_bind_ok_iff, bind_iff (α := U256 × U256), bind_iff (α := Hash256), assert_ok_iff,
    pure_ok_iff, gte_iff, hmin2000] at h
  obtain ⟨-, -, -, -, -, -, -, -, -, -, -, ⟨hlo, hhi⟩, expected, hcalc, hfee, hnet, -, -, -, hmin, payment, -, rfl⟩ := h
  have hsplit : FeeSplit pub.feeBps.toNat priv.grossAmount expected.1 expected.2 := calculateTaskFee_ok hcalc
  -- the split the guest computed is the one the entry states
  rw [hfee, hnet] at hsplit
  exact ⟨⟨hsplit, ⟨hlo, hhi⟩, hmin⟩, rfl⟩

theorem validateA2aMessage_ok {pub : A2AMessagePublicInputs} {priv : A2AMessagePrivateInputs}
    (h : validateA2aMessage pub priv = .ok nullifier) : nullifier = poseidonHash (messageNullifierInputs pub priv) := by
  simp only [validateA2aMessage, unit_bind_ok_iff, assert_ok_iff, pure_ok_iff] at h
  obtain ⟨-, -, -, -, -, -, -, -, -, -, -, -, -, -, -, rfl⟩ := h
  rfl

/-! ## Loops -/

variable {keccak256 : List UInt8 → Hash256} {version : UInt8} {st : BatchState}

/-- One turn of the deposit loop checks its entry and lists one nullifier. -/
theorem depositStep_ok (st : BatchState) (e : PublicInputs × PrivateInputs) (st' : BatchState)
    (h : depositStep st e = .ok st') :
    DepositChecked e.1 e.2 ∧ st'.nullifiers = st.nullifiers ++ [poseidonHash (depositNullifierInputs e.1 e.2)] := by
  rw [depositStep, bind_iff] at h
  obtain ⟨nullifier, hvalid, hpush⟩ := h
  obtain ⟨hchecked, rfl⟩ := validateDeposit_ok hvalid
  cases hpush
  exact ⟨hchecked, rfl⟩

theorem reverseBurnStep_ok (st : BatchState) (e : ReverseBurnPublicInputs × ReverseBurnPrivateInputs) (st' : BatchState)
    (h : reverseBurnStep st e = .ok st') :
    (FeeSplit 50 e.2.grossAmount e.2.feeAmount e.1.burnedAmount ∧ 10000000000000000 ≤ e.2.grossAmount.asU128)
      ∧ st'.nullifiers = st.nullifiers ++ [poseidonHash (reverseBurnNullifierInputs e.1 e.2)] := by
  rw [reverseBurnStep, bind_iff] at h
  obtain ⟨nullifier, hvalid, hpush⟩ := h
  obtain ⟨hchecked, rfl⟩ := validateReverseBurn_ok hvalid
  cases hpush
  exact ⟨hchecked, rfl⟩

theorem feeBurnStep_ok (st : BatchState) (e : FeeBurnPublicInputs) (st' : BatchState) (h : feeBurnStep st e = .ok st') :
    True ∧ st'.nullifiers = st.nullifiers ++ [poseidonHash (feeBurnNullifierInputs e)] := by
  rw [feeBurnStep, bind_iff] at h
  obtain ⟨nullifier, hvalid, hpush⟩ := h
  obtain rfl := validateFeeBurn_ok hvalid
  cases hpush
  exact ⟨trivial, rfl⟩

theorem aiTaskStep_ok (st : BatchState) (e : AITaskPublicInputs × AITaskPrivateInputs) (st' : BatchState)
    (h : aiTaskStep keccak256 version st e = .ok st') :
    TaskChecked e.1 e.2 ∧ st'.nullifiers = st.nullifiers ++ [poseidonHash (taskNullifierInputs e.1 e.2)] := by
  rw [aiTaskStep, bind_iff] at h
  obtain ⟨hashes, hvalid, hadd⟩ := h
  obtain ⟨fee, -, hpush⟩ := bind_iff.mp hadd
  obtain ⟨hchecked, hnullifier⟩ := validateAiTask_ok hvalid
  cases hpush
  rw [← hnullifier]
  exact ⟨hchecked, rfl⟩

theorem a2aMessageStep_ok (st : BatchState) (e : A2AMessagePublicInputs × A2AMessagePrivateInputs) (st' : BatchState)
    (h : a2aMessageStep st e = .ok st') :
    True ∧ st'.nullifiers = st.nullifiers ++ [poseidonHash (messageNullifierInputs e.1 e.2)] := by
  rw [a2aMessageStep, bind_iff] at h
  obtain ⟨nullifier, hvalid, hpush⟩ := h
  obtain rfl := validateA2aMessage_ok hvalid
  cases hpush
  exact ⟨trivial, rfl⟩

/-! ## The batch -/

variable {pub : UnifiedBatchPublicInputs} {priv : UnifiedBatchPrivateInputs} {out : UnifiedBatchOutput}

/-- The state before the first entry. -/
def start : BatchState := ⟨[], U256.fromU64 0, [], []⟩

theorem start_aggregateFee : start.aggregateFee.value = 0 := by decide +kernel

theorem start_push {α : Type} {list : List α} {inputs : α → List Hash256} {nullifiers : List Hash256}
    (h : nullifiers = start.nullifiers ++ list.map fun e => poseidonHash (inputs e)) :
    nullifiers = (list.map inputs).map poseidonHash := by
  rw [h, List.map_map]
  rfl

/-- An accepted batch has at most 20 entries and publishes what its loop collected. -/
theorem main_ok (h : main keccak256 pub priv = .ok out) :
    ∃ st, pub.batchSize.toNat ≤ 20 ∧ processBatch keccak256 pub priv start = .ok st
      ∧ out.nullifiers = st.nullifiers ∧ out.aggregateFee = st.aggregateFee := by
  rw [main, unit_bind_ok_iff, unit_bind_ok_iff, assert_ok_iff, assert_ok_iff] at h
  obtain ⟨-, hsize, hrest⟩ := h
  obtain ⟨st, hst, hrest⟩ := bind_iff.mp hrest
  obtain ⟨commitment, -, hout⟩ := bind_iff.mp hrest
  cases hout
  exact ⟨st, hsize, hst, rfl, rfl⟩

theorem length_entries_le {α β : Type} (batchSize : UInt32) (as : List α) (bs : List β) :
    (entries batchSize as bs).length ≤ batchSize.toNat := by
  rw [entries, List.length_take]
  exact Nat.min_le_left _ _

/-- What every nullifier of the batch is hashed from, in order. -/
def nullifierInputs (pub : UnifiedBatchPublicInputs) (priv : UnifiedBatchPrivateInputs) : List (List Hash256) :=
  match pub.proofType with
  | .forwardDeposit =>
    (entries pub.batchSize pub.deposits priv.deposits).map fun e => depositNullifierInputs e.1 e.2
  | .reverseBurn =>
    (entries pub.batchSize pub.reverseBurns priv.reverseBurns).map fun e => reverseBurnNullifierInputs e.1 e.2
  | .feeBurn => (pub.feeBurns.take pub.batchSize.toNat).map feeBurnNullifierInputs
  | .aiTask => (entries pub.batchSize pub.aiTasks priv.aiTasks).map fun e => taskNullifierInputs e.1 e.2
  | .a2aMessage => (entries pub.batchSize pub.a2aMessages priv.a2aMessages).map fun e => messageNullifierInputs e.1 e.2

/-- The entries that bear on the amounts, each with what its checks left. -/
def EntriesChecked (pub : UnifiedBatchPublicInputs) (priv : UnifiedBatchPrivateInputs) : Prop :=
  match pub.proofType with
  | .forwardDeposit => ∀ e ∈ entries pub.batchSize pub.deposits priv.deposits, DepositChecked e.1 e.2
  | .reverseBurn =>
    ∀ e ∈ entries pub.batchSize pub.reverseBurns priv.reverseBurns,
      FeeSplit 50 e.2.grossAmount e.2.feeAmount e.1.burnedAmount ∧ 10000000000000000 ≤ e.2.grossAmount.asU128
  | .feeBurn => True
  | .aiTask => ∀ e ∈ entries pub.batchSize pub.aiTasks priv.aiTasks, TaskChecked e.1 e.2
  | .a2aMessage => True

/-- The loop of every proof type checks each entry and lists its nullifier. -/
theorem processBatch_ok (h : processBatch keccak256 pub priv start = .ok st) :
    EntriesChecked pub priv ∧ st.nullifiers = (nullifierInputs pub priv).map poseidonHash := by
  rw [processBatch] at h
  rw [EntriesChecked, nullifierInputs]
  cases htype : pub.proofType with
  | forwardDeposit =>
    rw [htype] at h
    simp only [unit_bind_ok_iff] at h
    have hrun := foldlM_collects depositStep_ok h.2.2
    exact ⟨hrun.1, start_push hrun.2⟩
  | reverseBurn =>
    rw [htype] at h
    simp only [unit_bind_ok_iff] at h
    have hrun := foldlM_collects reverseBurnStep_ok h.2.2
    exact ⟨hrun.1, start_push hrun.2⟩
  | feeBurn =>
    rw [htype] at h
    simp only [unit_bind_ok_iff] at h
    have hrun := foldlM_collects feeBurnStep_ok h.2
    exact ⟨trivial, start_push hrun.2⟩
  | aiTask =>
    rw [htype] at h
    simp only [unit_bind_ok_iff] at h
    have hrun := foldlM_collects aiTaskStep_ok h.2.2
    exact ⟨hrun.1, start_push hrun.2⟩
  | a2aMessage =>
    rw [htype] at h
    simp only [unit_bind_ok_iff] at h
    have hrun := foldlM_collects a2aMessageStep_ok h.2.2
    exact ⟨trivial, start_push hrun.2⟩

end Sp1GuestAccept
