import Chit402.StakeRoutingProofs

/-! # The fees behind the boost

    The boost of a distribution is interpolated from the share of native
    fees in the fees of its period.

    `tagFeeOrigin` takes any amount from anybody. -/

namespace BoostAccounting

open ExceptFlow Solidity Custody RevenueSplitter RevenueConfig StakeRouting

/-! ## The boost without a distribution -/

/-- The boost a distribution would use now, and the native share of the fees. -/
def previewBoost (s : State) : Except Revert (Nat × Nat) := do
  let effectiveBoost ← computeBoost s
  if 0 < s.totalFeesSinceReset then
    let scaled ← mulU .overflow s.thetaNativeFeesSinceReset totalBps
    .ok (effectiveBoost, scaled / s.totalFeesSinceReset)
  else .ok (effectiveBoost, 0)

variable {s : State} {w : World}

theorem computeBoost_iff (hs : Configured s) : (∃ boost, computeBoost s = .ok boost) ↔ TagsFit s := by
  constructor
  · rintro ⟨boost, h⟩ hdynamic htotal
    have hcond : ¬ (s.dynamicBoostEnabled = false ∨ s.totalFeesSinceReset = 0) := by
      rw [hdynamic]
      rintro (hoff | hnone)
      · cases hoff
      · omega
    rw [computeBoost, if_neg hcond, bind_iff] at h
    obtain ⟨scaled, hscaled, -⟩ := h
    exact (mulU_ok_iff.mp hscaled).1
  · intro hfit
    have hyields := @computeBoost_yields (fun _ => False) s hs fun h => h hfit
    cases h : computeBoost s with
    | ok boost => exact ⟨boost, rfl⟩
    | error e => exact absurd h (fun he => hyields.raises e he)

theorem previewBoost_iff (hs : Configured s) : (∃ r, previewBoost s = .ok r) ↔
    (0 < s.totalFeesSinceReset → s.thetaNativeFeesSinceReset * totalBps < 2 ^ 256) := by
  constructor
  · rintro ⟨r, h⟩ htotal
    rw [previewBoost, bind_iff] at h
    obtain ⟨boost, -, h⟩ := h
    rw [if_pos htotal] at h
    obtain ⟨scaled, hscaled, -⟩ := bind_iff.mp h
    exact (mulU_ok_iff.mp hscaled).1
  · intro hfit
    obtain ⟨boost, hboost⟩ := (computeBoost_iff hs).mpr fun _ => hfit
    rw [previewBoost, hboost, ok_bind]
    split
    · rename_i htotal
      exact ⟨_, bind_iff.mpr ⟨_, mulU_ok_iff.mpr ⟨hfit htotal, rfl⟩, rfl⟩⟩
    · exact ⟨_, rfl⟩

/-! ## A distribution goes through -/

/-- Whoever calls, with accounts that accept. -/
def AlwaysDistributes (w : World) : Prop :=
  ∀ m replies, Accepts replies → ∃ w', distribute m replies w = .ok w'

theorem distributes_of_room (hw : Configured w.state) (hready : Ready w) (hroom : Room w) : AlwaysDistributes w := by
  intro m replies haccepts
  have hyields := @distribute_pays replies m w hw
  cases h : distribute m replies w with
  | ok w' => exact ⟨w', rfl⟩
  | error e => exact ((hyields.raises e h).absurd hready hroom haccepts).elim

theorem distributes_iff (hw : Configured w.state) (hready : Ready w) (hscarce : Scarce w.state (w.holdings .native)) :
    AlwaysDistributes w ↔ TagsFit w.state := by
  constructor
  · intro h
    obtain ⟨w', hw'⟩ := h sampleMsg sampleReplies fun _ => rfl
    rw [distribute, guarded_iff, guarded_iff, bind_iff] at hw'
    obtain ⟨-, -, boost, hboost, -⟩ := hw'
    exact (computeBoost_iff hw).mp ⟨boost, hboost⟩
  · exact fun htags => distributes_of_room hw hready ⟨htags, hscarce⟩

/-! ## Deposits -/

variable {value : Nat} {s' : State} {circuitId : Word} {w' : World}

theorem depositFee_iff : (∃ s', depositFee value circuitId s = .ok s') ↔
    s.paused = false ∧ 0 < value ∧ s.totalCollected + value < 2 ^ 256 ∧ s.circuitFees circuitId + value < 2 ^ 256
      ∧ s.totalFeesSinceReset + value < 2 ^ 256 := by
  constructor
  · rintro ⟨s', h⟩
    rw [depositFee, guarded_iff, guarded_iff, bind_iff, Bool.not_eq_true] at h
    obtain ⟨hpaused, hvalue, collected, hcollected, h⟩ := h
    obtain ⟨fees, hfees, h⟩ := bind_iff.mp h
    obtain ⟨total, htotal, -⟩ := bind_iff.mp h
    exact ⟨hpaused, Nat.pos_of_ne_zero hvalue, (addU_ok_iff.mp hcollected).1, (addU_ok_iff.mp hfees).1,
      (addU_ok_iff.mp htotal).1⟩
  · rintro ⟨hpaused, hvalue, hcollected, hfees, htotal⟩
    have hopen : ¬ s.paused = true := by
      rw [hpaused]
      exact Bool.false_ne_true
    rw [depositFee, guarded_of_not hopen, guarded_of_not (Nat.ne_of_gt hvalue),
      addU_ok_iff.mpr ⟨hcollected, rfl⟩, ok_bind, addU_ok_iff.mpr ⟨hfees, rfl⟩, ok_bind, addU_ok_iff.mpr ⟨htotal, rfl⟩]
    exact ⟨_, rfl⟩

theorem countNative_iff {tag amount : Nat} : (∃ s', countNative tag amount s = .ok s') ↔ (tag = providerTagThetaNative →
      s.thetaNativeFeesSinceReset + amount < 2 ^ 256 ∧ s.totalThetaNativeFees + amount < 2 ^ 256) := by
  rw [countNative]
  split_ifs with htag
  · constructor
    · rintro ⟨s', h⟩ -
      obtain ⟨native, hnative, h⟩ := bind_iff.mp h
      obtain ⟨lifetime, hlifetime, -⟩ := bind_iff.mp h
      exact ⟨(addU_ok_iff.mp hnative).1, (addU_ok_iff.mp hlifetime).1⟩
    · intro h
      obtain ⟨hnative, hlifetime⟩ := h htag
      rw [addU_ok_iff.mpr ⟨hnative, rfl⟩, ok_bind, addU_ok_iff.mpr ⟨hlifetime, rfl⟩]
      exact ⟨_, rfl⟩
  · exact ⟨fun _ h => absurd h htag, fun _ => ⟨s, rfl⟩⟩

theorem depositFee_lifetime (h : depositFee value circuitId s = .ok s') :
    s'.totalThetaNativeFees = s.totalThetaNativeFees := by
  rw [depositFee, guarded_iff, guarded_iff, bind_iff] at h
  obtain ⟨-, -, collected, -, h⟩ := h
  obtain ⟨fees, -, h⟩ := bind_iff.mp h
  obtain ⟨total, -, h⟩ := bind_iff.mp h
  cases h
  rfl

/-- Besides the deposit, a native tag needs room in the lifetime counter. -/
theorem depositFeeWithTag_iff {tag : Nat} (hs : Configured s) :
    (∃ s', depositFeeWithTag value circuitId tag s = .ok s') ↔ (∃ s', depositFee value circuitId s = .ok s')
      ∧ (tag = providerTagThetaNative → s.totalThetaNativeFees + value < 2 ^ 256) := by
  constructor
  · rintro ⟨s', h⟩
    obtain ⟨mid, hmid, h⟩ := bind_iff.mp h
    refine ⟨⟨mid, hmid⟩, fun htag => ?_⟩
    rw [← depositFee_lifetime hmid]
    exact (countNative_iff.mp ⟨s', h⟩ htag).2
  · rintro ⟨⟨mid, hmid⟩, hlifetime⟩
    have hcounts := depositFee_counts hmid
    have hroom := (depositFee_iff.mp ⟨mid, hmid⟩).2.2.2.2
    have hnative := hs.native
    obtain ⟨s', hs'⟩ := (@countNative_iff mid tag value).mpr fun htag => by
      rw [hcounts.native, depositFee_lifetime hmid]
      exact ⟨by omega, hlifetime htag⟩
    exact ⟨s', bind_iff.mpr ⟨mid, hmid, hs'⟩⟩

/-! ## A period of deposits and tags -/

/-- A fee of a period, and the tag it was given at the settlement of its intent, if any. -/
structure Fee where
  circuitId : Word
  amount : Nat
  tag : Option Nat

/-- The fee is forwarded by `submitIntent`, and tagged at most once by `settleIntent`, for its own amount. -/
def Fee.calls (f : Fee) : List OpenCall :=
  .depositFee f.amount f.circuitId :: (f.tag.toList.map fun tag => .tagFeeOrigin f.circuitId tag f.amount)

def isFeeCall : OpenCall → Bool
  | .depositFee _ _ => true
  | .depositFeeWithTag _ _ _ => true
  | .tagFeeOrigin _ _ _ => true
  | _ => false

/-- The calls that bring fees are those of `fees`, in any order and among any others. -/
def IsPeriod (fees : List Fee) (calls : List (Msg × OpenCall)) : Prop :=
  ((calls.map Prod.snd).filter isFeeCall).Perm (fees.flatMap Fee.calls)

/-- Calls of which none reverts. -/
def execAll (calls : List (Msg × OpenCall)) (w : World) : Except Revert World :=
  calls.foldlM (fun w n => execOpen n.1 n.2 w) w

def collectedFees (fees : List Fee) : Nat := (fees.map (·.amount)).sum

def taggedFees (fees : List Fee) : Nat := (fees.map fun f => if f.tag.isSome then f.amount else 0).sum

def nativeFees (fees : List Fee) : Nat :=
  (fees.map fun f => if f.tag = some providerTagThetaNative then f.amount else 0).sum

theorem nativeFees_le (fees : List Fee) : nativeFees fees ≤ taggedFees fees := by
  induction fees with
  | nil => exact Nat.le_refl _
  | cons f rest ih =>
    show (if f.tag = some providerTagThetaNative then f.amount else 0) + nativeFees rest
      ≤ (if f.tag.isSome then f.amount else 0) + taggedFees rest
    by_cases htag : f.tag = some providerTagThetaNative
    · rw [if_pos htag, htag]
      exact Nat.add_le_add_left ih f.amount
    · rw [if_neg htag]
      omega

variable {fees : List Fee}

theorem allNative_fees (h : ∀ f ∈ fees, f.tag = some providerTagThetaNative) :
    nativeFees fees = collectedFees fees ∧ taggedFees fees = collectedFees fees := by
  constructor
  · refine congrArg List.sum (List.map_congr_left fun f hf => ?_)
    rw [if_pos (h f hf)]
  · refine congrArg List.sum (List.map_congr_left fun f hf => ?_)
    rw [h f hf]
    rfl

theorem sum_feeCalls {count : OpenCall → Nat} (hzero : ∀ call, isFeeCall call = false → count call = 0)
    (calls : List OpenCall) : (calls.map count).sum = ((calls.filter isFeeCall).map count).sum := by
  induction calls with
  | nil => rfl
  | cons call rest ih =>
    rw [List.map_cons, List.sum_cons, ih]
    cases hfee : isFeeCall call with
    | true => rw [List.filter_cons_of_pos hfee, List.map_cons, List.sum_cons]
    | false => rw [List.filter_cons_of_neg (by rw [hfee]; exact Bool.false_ne_true), hzero call hfee, Nat.zero_add]

theorem counted_of_not_fee (call : OpenCall) (h : isFeeCall call = false) : counted call = 0 := by
  cases call with
  | depositFee value circuitId => cases h
  | depositFeeWithTag value circuitId tag => cases h
  | tagFeeOrigin circuitId tag amount => cases h
  | _ => rfl

theorem countedNative_of_not_fee (call : OpenCall) (h : isFeeCall call = false) : countedNative call = 0 := by
  have hle := countedNative_le call
  have hnone := counted_of_not_fee call h
  omega

theorem counted_fees (fees : List Fee) :
    ((fees.flatMap Fee.calls).map counted).sum = collectedFees fees + taggedFees fees := by
  induction fees with
  | nil => rfl
  | cons f rest ih =>
    have hf : (f.calls.map counted).sum = f.amount + if f.tag.isSome then f.amount else 0 := by
      rw [Fee.calls]
      cases f.tag <;> rfl
    rw [List.flatMap_cons, List.map_append, List.sum_append, hf, ih]
    show _ = f.amount + collectedFees rest + ((if f.tag.isSome then f.amount else 0) + taggedFees rest)
    omega

theorem countedNative_fees (fees : List Fee) : ((fees.flatMap Fee.calls).map countedNative).sum = nativeFees fees := by
  induction fees with
  | nil => rfl
  | cons f rest ih =>
    have hf : (f.calls.map countedNative).sum = if f.tag = some providerTagThetaNative then f.amount else 0 := by
      rw [Fee.calls]
      cases htag : f.tag with
      | none => rfl
      | some tag =>
        show 0 + ((if tag = providerTagThetaNative then f.amount else 0) + 0) = _
        rw [Nat.zero_add, Nat.add_zero]
        exact if_congr (Option.some.injEq tag _ ▸ Iff.rfl) rfl rfl
    rw [List.flatMap_cons, List.map_append, List.sum_append, hf, ih]
    rfl

/-- What calls that all succeed count. -/
theorem execAll_counts {calls : List (Msg × OpenCall)} (h : execAll calls w = .ok w') :
    Counts w.state w'.state ((calls.map Prod.snd).map counted).sum ((calls.map Prod.snd).map countedNative).sum := by
  induction calls generalizing w with
  | nil =>
    cases h
    exact ⟨rfl, rfl, rfl, rfl⟩
  | cons n rest ih =>
    obtain ⟨w1, h1, hrest⟩ := foldlM_cons_ok_iff.mp h
    rw [execOpen, bind_iff] at h1
    obtain ⟨s1, hs1, h1⟩ := h1
    cases h1
    have hfirst := execState_counts _ hs1
    have htail := ih hrest
    refine ⟨htail.settings.trans hfirst.settings, htail.ledger.trans hfirst.ledger, ?_, ?_⟩
    · rw [htail.total, World.write_state, hfirst.total, List.map_cons, List.map_cons, List.sum_cons, Nat.add_assoc]
    · rw [htail.native, World.write_state, hfirst.native, List.map_cons, List.map_cons, List.sum_cons, Nat.add_assoc]

/-- **PERIOD**: a tagged fee is in the total twice, in the native fees once. -/
theorem period_counts {calls : List (Msg × OpenCall)} (hperiod : IsPeriod fees calls) (h : execAll calls w = .ok w') :
    Counts w.state w'.state (collectedFees fees + taggedFees fees) (nativeFees fees) := by
  have hcounts := execAll_counts h
  rw [sum_feeCalls counted_of_not_fee, (hperiod.map counted).sum_eq, counted_fees,
    sum_feeCalls countedNative_of_not_fee, (hperiod.map countedNative).sum_eq, countedNative_fees] at hcounts
  exact hcounts

/-- The ratio of the counters is the native share of the collected fees. -/
def ExactRatio (fees : List Fee) (s : State) : Prop :=
  s.thetaNativeFeesSinceReset * collectedFees fees = nativeFees fees * s.totalFeesSinceReset

theorem exactRatio_iff (hs : Configured s) (hreset : s.totalFeesSinceReset = 0)
    (h : Counts s s' (collectedFees fees + taggedFees fees) (nativeFees fees)) :
    ExactRatio fees s' ↔ nativeFees fees = 0 := by
  have hnative := hs.native
  have hzero : s.thetaNativeFeesSinceReset = 0 := by omega
  have hle := nativeFees_le fees
  rw [ExactRatio, h.native, h.total, hzero, hreset, Nat.zero_add, Nat.zero_add, Nat.mul_add]
  constructor
  · intro hexact
    have hprod : nativeFees fees * taggedFees fees = 0 := by omega
    rcases Nat.mul_eq_zero.mp hprod with hnone | hnone
    · exact hnone
    · omega
  · intro hnone
    rw [hnone, Nat.zero_mul, Nat.zero_mul]

/-- Half of the total is then native. -/
theorem allNative_boost {boost : Nat} (hs : Configured s) (hreset : s.totalFeesSinceReset = 0)
    (hpos : 0 < collectedFees fees) (hall : ∀ f ∈ fees, f.tag = some providerTagThetaNative)
    (hdynamic : s'.dynamicBoostEnabled = true)
    (h : Counts s s' (collectedFees fees + taggedFees fees) (nativeFees fees)) (hboost : computeBoost s' = .ok boost) :
    boost = 17500 := by
  have hnative := hs.native
  obtain ⟨hfees, htagged⟩ := allNative_fees hall
  have hn : s'.thetaNativeFeesSinceReset = collectedFees fees := by
    rw [h.native, hfees]
    omega
  have ht : s'.totalFeesSinceReset = 2 * collectedFees fees := by
    rw [h.total, htagged]
    omega
  have hcond : ¬ (s'.dynamicBoostEnabled = false ∨ s'.totalFeesSinceReset = 0) := by
    rw [hdynamic, ht]
    rintro (hoff | hnone)
    · cases hoff
    · omega
  have hratio : collectedFees fees * totalBps / (2 * collectedFees fees) = 5000 := by
    rw [show collectedFees fees * totalBps = 2 * collectedFees fees * 5000 by rw [totalBps]; omega]
    exact Nat.mul_div_cancel_left 5000 (by omega)
  rw [computeBoost, if_neg hcond, bind_iff, hn, ht] at hboost
  obtain ⟨scaled, hscaled, hboost⟩ := hboost
  obtain ⟨-, rfl⟩ := mulU_ok_iff.mp hscaled
  rw [hratio] at hboost
  exact (Except.ok.inj hboost).symm

/-! ## Every reachable state -/

/-- **BOOST ACCOUNTS**: what holds of the boost and of the counters behind it. -/
structure BoostAccounts (w : World) : Prop where
  range : minBoost ≤ w.state.boostMultiplier ∧ w.state.boostMultiplier ≤ maxBoost
  computed : ∀ boost, computeBoost w.state = .ok boost → minBoost ≤ boost ∧ boost ≤ maxBoost
  distributes : Ready w → Scarce w.state (w.holdings .native) → (AlwaysDistributes w ↔ TagsFit w.state)
  deposits : ∀ value circuitId, w.state.paused = false → 0 < value → w.state.totalCollected + value < 2 ^ 256 →
    w.state.circuitFees circuitId + value < 2 ^ 256 →
    ((∃ s', depositFee value circuitId w.state = .ok s') ↔ w.state.totalFeesSinceReset + value < 2 ^ 256)
  taggedDeposits : ∀ value circuitId tag, w.state.paused = false → 0 < value →
    w.state.totalCollected + value < 2 ^ 256 → w.state.circuitFees circuitId + value < 2 ^ 256 →
    ((∃ s', depositFeeWithTag value circuitId tag w.state = .ok s') ↔ w.state.totalFeesSinceReset + value < 2 ^ 256
      ∧ (tag = providerTagThetaNative → w.state.totalThetaNativeFees + value < 2 ^ 256))
  preview : (∃ r, previewBoost w.state = .ok r) ↔
    (0 < w.state.totalFeesSinceReset → w.state.thetaNativeFeesSinceReset * totalBps < 2 ^ 256)
  ratio : w.state.totalFeesSinceReset = 0 → ∀ fees calls w', IsPeriod fees calls → execAll calls w = .ok w' →
    (ExactRatio fees w'.state ↔ nativeFees fees = 0)
  allNative : w.state.totalFeesSinceReset = 0 → ∀ fees calls w', IsPeriod fees calls → execAll calls w = .ok w' →
    0 < collectedFees fees → (∀ f ∈ fees, f.tag = some providerTagThetaNative) →
    w'.state.dynamicBoostEnabled = true → ∀ boost, computeBoost w'.state = .ok boost → boost = 17500

variable {admin : Address} {wallets : Wallets} {now balance : Nat} {c : Splitter}

theorem boost_accounts (h : construct admin wallets now balance = .ok c) (ops : List Op) :
    BoostAccounts (runOps c ops).world := by
  have hw := run_configured h ops
  generalize (runOps c ops).world = w at hw ⊢
  refine ⟨⟨hw.minBoost, hw.maxBoost⟩, fun boost hboost => computeBoost_range hw hboost,
    distributes_iff hw, ?_, ?_, previewBoost_iff hw, ?_, ?_⟩
  · intro value circuitId hpaused hvalue hcollected hfees
    rw [depositFee_iff]
    exact ⟨fun hall => hall.2.2.2.2, fun htotal => ⟨hpaused, hvalue, hcollected, hfees, htotal⟩⟩
  · intro value circuitId tag hpaused hvalue hcollected hfees
    rw [depositFeeWithTag_iff hw, depositFee_iff]
    exact ⟨fun hall => ⟨hall.1.2.2.2.2, hall.2⟩,
      fun hall => ⟨⟨hpaused, hvalue, hcollected, hfees, hall.1⟩, hall.2⟩⟩
  · intro hreset fees calls w' hperiod hcalls
    exact exactRatio_iff hw hreset (period_counts hperiod hcalls)
  · intro hreset fees calls w' hperiod hcalls hpos hall hdynamic boost hboost
    exact allNative_boost hw hreset hpos hall hdynamic (period_counts hperiod hcalls) hboost

/-- A native fee and one without a tag. -/
def sampleFees : List Fee := [⟨7, 10000, some providerTagThetaNative⟩, ⟨7, 5000, none⟩]

def sampleCalls : List (Msg × OpenCall) := (sampleFees.flatMap Fee.calls).map fun call => (sampleMsg, call)

/-- After a fee the distribution and the preview go through; a native fee beside another is not counted at its share. -/
theorem boost_accounts_sample : AlwaysDistributes (runOps sampleSplitter [sampleCall (.depositFee 10000 7)]).world
    ∧ (∃ r, previewBoost (runOps sampleSplitter [sampleCall (.depositFee 10000 7)]).world.state = .ok r)
    ∧ ∃ w', execAll sampleCalls (runOps sampleSplitter []).world = .ok w' ∧ ¬ ExactRatio sampleFees w'.state := by
  have haccounts := @boost_accounts 0xAD sampleWallets 1700000000 0 sampleSplitter rfl
    [sampleCall (.depositFee 10000 7)]
  refine ⟨(haccounts.distributes ⟨?_, ?_⟩ ⟨?_, ?_, fun chain => ?_, ?_⟩).mpr fun _ _ => ?_,
    haccounts.preview.mpr fun _ => ?_, ?_⟩
  · decide +kernel
  · decide +kernel
  · rw [Scaled]
    decide +kernel
  · decide +kernel
  · have hnone : (runOps sampleSplitter [sampleCall (.depositFee 10000 7)]).world.state.chainStakeTotal chain = 0 := rfl
    rw [hnone]
    decide +kernel
  · decide +kernel
  · decide +kernel
  · decide +kernel
  · obtain ⟨w', hw'⟩ : ∃ w', execAll sampleCalls (runOps sampleSplitter []).world = .ok w' := ⟨_, rfl⟩
    have hratio := (@boost_accounts 0xAD sampleWallets 1700000000 0 sampleSplitter rfl []).ratio rfl
      sampleFees sampleCalls w'
      (List.Perm.refl _) hw'
    exact ⟨w', hw', fun hexact => absurd (hratio.mp hexact) (by decide)⟩

theorem strangerTime_positive : 0 < 1700000001 := by decide

theorem strangerTime_inRange : 1700000001 < 2 ^ 64 := by decide

/-- Somebody without a role. -/
def strangerMsg : Msg where
  sender := 0xBAD
  timestamp := 1700000001
  chainid := 361
  holds := fun _ => false
  positive := strangerTime_positive
  inRange := strangerTime_inRange

/-- One fee, and a stranger's tag for the largest amount that fits. -/
def sampleStranger : List Op := [
  sampleCall (.depositFee 10000 7),
  .call {
    msg := strangerMsg
    call := .openCall (.tagFeeOrigin 7 providerTagThetaNative (2 ^ 256 - 1 - 10000))
    replies := sampleReplies }]

/-- The only fee of a period, settled as a native one. -/
def sampleNative : List Op := [
  sampleCall (.depositFee 10000 7), sampleCall (.tagFeeOrigin 7 providerTagThetaNative 10000)]

def blocked : World := (runOps sampleSplitter sampleStranger).world

/-- One call of a stranger stops deposits, previews and distributions; and a period of native fees only does not get
    the full boost. -/
theorem stranger_blocks : Ready blocked ∧ distribute sampleMsg sampleReplies blocked = .error .overflow
    ∧ previewBoost blocked.state = .error .overflow ∧ depositFee 1 7 blocked.state = .error .overflow
    ∧ (computeBoost (runOps sampleSplitter sampleNative).world.state).toOption = some 17500 ∧ 17500 ≠ maxBoost := by
  refine ⟨⟨?_, ?_⟩, ?_, ?_, ?_, ?_, ?_⟩
  · decide +kernel
  · decide +kernel
  · rfl
  · rfl
  · rfl
  · decide +kernel
  · decide

end BoostAccounting
