import Chit402.Sp1GuestAcceptProofs
import Mathlib.Algebra.Order.BigOperators.Group.List

/-! # Amounts the guest accepts

    The assertions compare amounts the arithmetic built from low halves, so
    an accepted batch splits its gross amounts exactly where none of them
    has a high half.  The fees of the tasks always add up; those of the
    messages do where ten times the escrow fits the low half. -/

namespace Sp1GuestAmounts

open ExceptFlow Sp1Guest Sp1GuestAccept

variable {keccak256 : List UInt8 → Hash256} {pub : UnifiedBatchPublicInputs} {priv : UnifiedBatchPrivateInputs}
  {out : UnifiedBatchOutput} {st st' : BatchState}

/-! ## One amount -/

/-- A gross amount of at least the minimum is the rest and its rounded-down fee. -/
structure SplitExact (bps minimum : ℕ) (gross rest fee : U256) : Prop where
  whole : gross.value = rest.value + fee.value
  rate : fee.value = gross.value * bps / 10000
  floor : minimum ≤ gross.value

variable {fee : U256} {version : UInt8} {minimum : ℕ}

theorem splitExact_iff {bps : ℕ} {gross rest : U256} (h : FeeSplit bps gross fee rest) (hbps : bps ≤ 10000)
    (hmin : minimum ≤ gross.asU128) : SplitExact bps minimum gross rest fee ↔ gross.value < 2 ^ 128 := by
  have hrest := h.value_rest hbps
  constructor
  · intro hexact
    rw [hexact.whole, hrest]
    exact asU128_lt gross
  · intro hlow
    have hgross := asU128_of_lt hlow
    exact ⟨by rw [hrest, hgross], by rw [h.value_fee hbps, hgross], by rw [← hgross]; exact hmin⟩

/-! ## The relay fee -/

theorem value_of_isZero {u : U256} (h : u.isZero = true) : u.value = 0 := by
  have hbytes : u.bytes = fun _ => 0 := funext (of_decide_eq_true h)
  rw [U256.value, hbytes, List.ofFn_const, LittleEndian.value_replicate_zero]

theorem asU128_ten : (U256.fromU64 10).asU128 = 10 := by decide +kernel

theorem asU128_zero : (U256.fromU64 0).asU128 = 0 := by decide +kernel

theorem value_div (u : U256) : (u.div 10000).value = u.asU128 / 10000 := by
  have hlt := asU128_lt u
  exact value_ofU128 (by omega)

theorem value_relayFee (escrow : U256) :
    (relayFee escrow).value = if escrow.asU128 * 10 < 2 ^ 128 then escrow.asU128 * 10 / 10000 else 0 := by
  rw [relayFee, U256.checkedMul, asU128_ten, value_div]
  by_cases h : escrow.asU128 * 10 < 2 ^ 128
  · rw [if_pos h, if_pos h, Option.getD_some, asU128_ofU128 h]
  · rw [if_neg h, if_neg h, Option.getD_none, asU128_zero]

theorem relayFee_le (escrow : U256) : (relayFee escrow).value ≤ escrow.value * 10 / 10000 := by
  have hvalue := value_eq escrow
  rw [value_relayFee]
  split <;> omega

theorem relayFee_eq_iff (escrow : U256) :
    (relayFee escrow).value = escrow.value * 10 / 10000 ↔ escrow.value * 10 < 2 ^ 128 := by
  have hvalue := value_eq escrow
  have hlt := asU128_lt escrow
  rw [value_relayFee]
  constructor
  · intro h
    by_contra hbig
    split at h
    · -- a high half alone is worth more than the whole low half
      omega
    · omega
  · intro h
    rw [asU128_of_lt (by omega), if_pos h]

/-! ## Totals -/

theorem sum_eq_iff {α : Type} (charged owed : α → ℕ) {list : List α} (hle : ∀ x, charged x ≤ owed x) :
    (list.map charged).sum = (list.map owed).sum ↔ ∀ x ∈ list, charged x = owed x := by
  induction list with
  | nil => exact ⟨fun _ x hx => (nomatch hx), fun _ => rfl⟩
  | cons x rest ih =>
    have hx := hle x
    have hrest : (rest.map charged).sum ≤ (rest.map owed).sum := List.sum_le_sum fun y _ => hle y
    rw [List.map_cons, List.sum_cons, List.map_cons, List.sum_cons, List.forall_mem_cons, ← ih]
    omega

/-- More than any one fee, and twenty of them fit the low half. -/
def maxFee : ℕ := 2 ^ 128 / 100

theorem room {α : Type} {list : List α} (hlen : list.length ≤ 20) :
    start.aggregateFee.value + list.length * maxFee < 2 ^ 128 := by
  have hmul := Nat.mul_le_mul_right maxFee hlen
  have hfit : 20 * maxFee < 2 ^ 128 := by decide
  rw [start_aggregateFee]
  omega

theorem checkedAdd_value {total : U256} (hroom : total.value + maxFee < 2 ^ 128) (hfee : fee.value ≤ maxFee) :
    ∃ sum, total.checkedAdd fee = some sum ∧ sum.value = total.value + fee.value := by
  have htotal := asU128_of_lt (u := total) (by omega)
  have hlow := asU128_of_lt (u := fee) (by omega)
  have hlt : total.asU128 + fee.asU128 < 2 ^ 128 := by omega
  refine ⟨_, checkedAdd_of_lt hlt, ?_⟩
  rw [value_ofU128 hlt, htotal, hlow]

theorem aiTaskStep_adds {e : AITaskPublicInputs × AITaskPrivateInputs}
    (hroom : st.aggregateFee.value + maxFee < 2 ^ 128) (h : aiTaskStep keccak256 version st e = .ok st') :
    st'.aggregateFee.value = st.aggregateFee.value + e.1.feeAmount.value ∧ e.1.feeAmount.value ≤ maxFee := by
  have hchecked := (aiTaskStep_ok _ _ _ h).1
  have hfee : e.1.feeAmount.value ≤ maxFee := by
    have hlt := asU128_lt e.2.grossAmount
    have hmul := Nat.mul_le_mul_left e.2.grossAmount.asU128 hchecked.bps.2
    have hbps := hchecked.bps.2
    rw [hchecked.split.value_fee (by omega), maxFee]
    omega
  obtain ⟨sum, hsum, hvalue⟩ := checkedAdd_value hroom hfee
  rw [aiTaskStep, bind_iff] at h
  obtain ⟨hashes, -, hadd⟩ := h
  rw [hsum] at hadd
  cases hadd
  exact ⟨hvalue, hfee⟩

theorem a2aMessageStep_adds {e : A2AMessagePublicInputs × A2AMessagePrivateInputs}
    (hroom : st.aggregateFee.value + maxFee < 2 ^ 128) (h : a2aMessageStep st e = .ok st') :
    st'.aggregateFee.value = st.aggregateFee.value + (relayFee e.1.escrowAmount).value
      ∧ (relayFee e.1.escrowAmount).value ≤ maxFee := by
  have hfee : (relayFee e.1.escrowAmount).value ≤ maxFee := by
    rw [value_relayFee, maxFee]
    split <;> omega
  rw [a2aMessageStep, bind_iff] at h
  obtain ⟨nullifier, -, hpush⟩ := h
  cases hpush
  refine ⟨?_, hfee⟩
  by_cases hzero : e.1.escrowAmount.isZero = true
  · have hnone := relayFee_le e.1.escrowAmount
    rw [value_of_isZero hzero] at hnone
    show (if e.1.escrowAmount.isZero = true then st.aggregateFee else _ : U256).value = _
    rw [if_pos hzero]
    omega
  · obtain ⟨sum, hsum, hvalue⟩ := checkedAdd_value hroom hfee
    show (if e.1.escrowAmount.isZero = true then st.aggregateFee else
      (st.aggregateFee.checkedAdd (relayFee e.1.escrowAmount)).getD st.aggregateFee).value = _
    rw [if_neg hzero, hsum]
    exact hvalue

theorem relayFees_exact_iff (list : List (A2AMessagePublicInputs × A2AMessagePrivateInputs)) :
    (list.map fun e => (relayFee e.1.escrowAmount).value).sum
        = (list.map fun e => e.1.escrowAmount.value * 10 / 10000).sum
      ↔ ∀ e ∈ list, e.1.escrowAmount.value * 10 < 2 ^ 128 := by
  rw [sum_eq_iff (fun e : A2AMessagePublicInputs × A2AMessagePrivateInputs => (relayFee e.1.escrowAmount).value)
    (fun e => e.1.escrowAmount.value * 10 / 10000) fun e => relayFee_le e.1.escrowAmount]
  apply forall₂_congr
  intro e _
  exact relayFee_eq_iff e.1.escrowAmount

/-! ## The batch -/

/-- Every amount of the batch is exact, and so is the fee it commits. -/
def AmountsExact (pub : UnifiedBatchPublicInputs) (priv : UnifiedBatchPrivateInputs)
    (out : UnifiedBatchOutput) : Prop :=
  match pub.proofType with
  | .forwardDeposit =>
    ∀ e ∈ entries pub.batchSize pub.deposits priv.deposits,
      SplitExact 50 10000000000000000 e.2.grossAmount e.1.netAmount e.2.feeAmount
  | .reverseBurn =>
    ∀ e ∈ entries pub.batchSize pub.reverseBurns priv.reverseBurns,
      SplitExact 50 10000000000000000 e.2.grossAmount e.1.burnedAmount e.2.feeAmount
  | .feeBurn => True
  | .aiTask =>
    (∀ e ∈ entries pub.batchSize pub.aiTasks priv.aiTasks,
      SplitExact e.1.feeBps.toNat 2000 e.2.grossAmount e.1.netAmount e.1.feeAmount)
    ∧ out.aggregateFee.value
      = ((entries pub.batchSize pub.aiTasks priv.aiTasks).map fun e => e.1.feeAmount.value).sum
  | .a2aMessage =>
    out.aggregateFee.value
      = ((entries pub.batchSize pub.a2aMessages priv.a2aMessages).map fun e => e.1.escrowAmount.value * 10 / 10000).sum

/-- No gross amount reaches the high half, and no escrow does when multiplied by ten. -/
def InLowHalf (pub : UnifiedBatchPublicInputs) (priv : UnifiedBatchPrivateInputs) : Prop :=
  match pub.proofType with
  | .forwardDeposit =>
    ∀ e ∈ entries pub.batchSize pub.deposits priv.deposits, e.2.grossAmount.value < 2 ^ 128
  | .reverseBurn =>
    ∀ e ∈ entries pub.batchSize pub.reverseBurns priv.reverseBurns, e.2.grossAmount.value < 2 ^ 128
  | .feeBurn => True
  | .aiTask => ∀ e ∈ entries pub.batchSize pub.aiTasks priv.aiTasks, e.2.grossAmount.value < 2 ^ 128
  | .a2aMessage =>
    ∀ e ∈ entries pub.batchSize pub.a2aMessages priv.a2aMessages, e.1.escrowAmount.value * 10 < 2 ^ 128

theorem forall_splitExact_iff {α : Type} {list : List α} {bps : α → ℕ} {gross rest fee : α → U256}
    (h : ∀ e ∈ list, FeeSplit (bps e) (gross e) (fee e) (rest e) ∧ bps e ≤ 10000 ∧ minimum ≤ (gross e).asU128) :
    (∀ e ∈ list, SplitExact (bps e) minimum (gross e) (rest e) (fee e)) ↔ ∀ e ∈ list, (gross e).value < 2 ^ 128 := by
  apply forall₂_congr
  intro e he
  obtain ⟨hsplit, hbps, hmin⟩ := h e he
  exact splitExact_iff hsplit hbps hmin

theorem aggregate_tasks {list : List (AITaskPublicInputs × AITaskPrivateInputs)} (hlen : list.length ≤ 20)
    (h : list.foldlM (aiTaskStep keccak256 version) start = .ok st) :
    st.aggregateFee.value = (list.map fun e => e.1.feeAmount.value).sum := by
  have hsum := foldlM_adds (fun s => s.aggregateFee.value) (fun e => e.1.feeAmount.value)
    (fun _ _ _ => aiTaskStep_adds) (room hlen) h
  rw [hsum, start_aggregateFee, Nat.zero_add]

theorem aggregate_messages {list : List (A2AMessagePublicInputs × A2AMessagePrivateInputs)} (hlen : list.length ≤ 20)
    (h : list.foldlM a2aMessageStep start = .ok st) :
    st.aggregateFee.value = (list.map fun e => (relayFee e.1.escrowAmount).value).sum := by
  have hsum := foldlM_adds (fun s => s.aggregateFee.value) (fun e => (relayFee e.1.escrowAmount).value)
    (fun _ _ _ => a2aMessageStep_adds) (room hlen) h
  rw [hsum, start_aggregateFee, Nat.zero_add]

/-- **EXACT AMOUNTS**: an accepted batch is exact if and only if its amounts stay in the low half. -/
theorem amounts_exact_iff (h : main keccak256 pub priv = .ok out) : AmountsExact pub priv out ↔ InLowHalf pub priv := by
  obtain ⟨st, hsize, hst, -, hfee⟩ := main_ok h
  have hchecked := (processBatch_ok hst).1
  rw [EntriesChecked] at hchecked
  rw [processBatch] at hst
  rw [AmountsExact, InLowHalf, hfee]
  cases htype : pub.proofType with
  | forwardDeposit =>
    rw [htype] at hchecked
    apply forall_splitExact_iff
    intro e he
    exact ⟨(hchecked e he).split, by decide, (hchecked e he).minimum⟩
  | reverseBurn =>
    rw [htype] at hchecked
    apply forall_splitExact_iff
    intro e he
    exact ⟨(hchecked e he).1, by decide, (hchecked e he).2⟩
  | feeBurn => exact Iff.rfl
  | aiTask =>
    rw [htype] at hchecked hst
    simp only [unit_bind_ok_iff] at hst
    have hsum := aggregate_tasks ((length_entries_le _ _ _).trans hsize) hst.2.2
    apply (and_iff_left hsum).trans
    apply forall_splitExact_iff
    intro e he
    have hbps := (hchecked e he).bps
    exact ⟨(hchecked e he).split, by omega, (hchecked e he).minimum⟩
  | a2aMessage =>
    rw [htype] at hst
    simp only [unit_bind_ok_iff] at hst
    have hsum := aggregate_messages ((length_entries_le _ _ _).trans hsize) hst.2.2
    apply (Eq.congr_left hsum).trans
    exact relayFees_exact_iff _

/-! ## Two deposits -/

/-- A deposit of the given amounts, without a Merkle path. -/
def deposit (gross net fee : ℕ) : PublicInputs × PrivateInputs :=
  ({ vaultAddress := fun _ => 1, netAmount := ⟨padded 32 net⟩, blockNumber := 7, merkleRoot := fun _ => 0,
     identityCommitment := fun _ => 0 },
   { senderAddress := fun _ => 2, grossAmount := ⟨padded 32 gross⟩, feeAmount := ⟨padded 32 fee⟩,
     blockHash := fun _ => 3, blockTimestamp := 1700000000, txHash := fun _ => 4, txIndex := 0, merkleProof := [],
     merklePathIndices := [], identitySecret := fun _ => 5, identityNullifier := fun _ => 6,
     identityTrapdoor := fun _ => 7 })

def depositPublic (ds : List (PublicInputs × PrivateInputs)) : UnifiedBatchPublicInputs :=
  { publicValuesVersion := 1, proofType := .forwardDeposit, batchSize := UInt32.ofNat ds.length,
    deposits := ds.map Prod.fst, reverseBurns := [], feeBurns := [], aiTasks := [], a2aMessages := [] }

def depositPrivate (ds : List (PublicInputs × PrivateInputs)) : UnifiedBatchPrivateInputs :=
  { deposits := ds.map Prod.snd, reverseBurns := [], aiTasks := [], a2aMessages := [] }

/-- Deposits call no hash from outside. -/
def noKeccak : List UInt8 → Hash256 := fun _ _ => 0

theorem exists_out {x : Except String UnifiedBatchOutput} (h : x.isOk = true) : ∃ out, x = .ok out := by
  cases x with
  | error e => cases h
  | ok out => exact ⟨out, rfl⟩

/-- One TFUEL and a half-percent fee. -/
def oneTfuel : List (PublicInputs × PrivateInputs) := [deposit (10 ^ 18) (995 * 10 ^ 15) (5 * 10 ^ 15)]

theorem amounts_exact_oneTfuel : ∃ out, main noKeccak (depositPublic oneTfuel) (depositPrivate oneTfuel) = .ok out
      ∧ (AmountsExact (depositPublic oneTfuel) (depositPrivate oneTfuel) out
        ↔ InLowHalf (depositPublic oneTfuel) (depositPrivate oneTfuel)) := by
  obtain ⟨out, hout⟩ := exists_out
    (x := main noKeccak (depositPublic oneTfuel) (depositPrivate oneTfuel)) (by decide +kernel)
  exact ⟨out, hout, amounts_exact_iff hout⟩

/-- The same fee and rest under a gross amount with a bit in its high half. -/
def highBit : List (PublicInputs × PrivateInputs) := [deposit (2 ^ 128 + 10 ^ 18) (995 * 10 ^ 15) (5 * 10 ^ 15)]

theorem high_half_ignored : ∃ out, main noKeccak (depositPublic highBit) (depositPrivate highBit) = .ok out
      ∧ ¬ AmountsExact (depositPublic highBit) (depositPrivate highBit) out := by
  obtain ⟨out, hout⟩ := exists_out
    (x := main noKeccak (depositPublic highBit) (depositPrivate highBit)) (by decide +kernel)
  refine ⟨out, hout, ?_⟩
  intro hexact
  have hwhole := (hexact _ List.mem_cons_self).whole
  revert hwhole
  decide +kernel

end Sp1GuestAmounts
