import Chit402.JsTextProofs
import Mathlib.Algebra.BigOperators.Group.List.Basic
import Mathlib.Tactic.Linarith

/-! # The revenue split

    `splitFee` reports what each bucket gets of a fee: its floored share, and
    the last of the list what is left.  The Split on the chain has the
    buckets with a share only. -/

namespace RevenueSplit

open JsText (isHexDigit)

/-- `bps` that sum to the whole. -/
def totalBps : ℤ := 10000

structure Bucket where
  key : String
  label : String
  address : Option String
  bps : ℤ
deriving DecidableEq

structure Split where
  buckets : List Bucket
  totalBps : ℤ

/-- `/^0x[0-9a-fA-F]{40}$/` -/
def isAddress (text : String) : Bool :=
  match text.toList with
  | '0' :: 'x' :: digits => digits.length = 40 && digits.all isHexDigit
  | _ => false

def Bucket.hasAddress (b : Bucket) : Bool := isAddress (b.address.getD "")

def bucketErrors (requireAddresses : Bool) (b : Bucket) : List String :=
  (if b.bps < 0 then [b.key ++ ": negative bps"] else [])
    ++ if requireAddresses && b.bps > 0 && !b.hasAddress then
      [b.key ++ ": missing/invalid address (bps=" ++ toString b.bps ++ ")"] else []

def validateSplit (split : Split) (requireAddresses : Bool) : List String :=
  (if split.totalBps ≠ totalBps then
    ["bucket bps must sum to " ++ toString totalBps ++ ", got " ++ toString split.totalBps] else [])
    ++ split.buckets.flatMap (bucketErrors requireAddresses)

/-! ## The Split on the chain -/

structure SplitsV2Config where
  recipients : List String
  allocations : List ℤ
  totalAllocation : ℤ
  distributionIncentive : ℤ

def toSplitsV2Config (split : Split) (distributionIncentive : Option ℤ) : SplitsV2Config :=
  let active := split.buckets.filter fun b => b.bps > 0 && b.hasAddress
  let allocations := active.map Bucket.bps
  { recipients := active.map fun b => b.address.getD ""
    allocations := allocations
    totalAllocation := allocations.sum
    distributionIncentive := distributionIncentive.getD 0 }

/-- What the deployed Split pays its recipients of `amount`: floored shares, the dust stays. -/
def SplitsV2Config.pays (config : SplitsV2Config) (amount : ℤ) : List ℤ :=
  config.allocations.map fun allocation => amount * allocation / config.totalAllocation

/-! ## The report -/

/-- A bucket's row; the amount is written in decimal. -/
structure Share where
  key : String
  label : String
  address : Option String
  bps : ℤ
  amount : ℤ
deriving DecidableEq

def Bucket.share (b : Bucket) (amount : ℤ) : Share := ⟨b.key, b.label, b.address, b.bps, amount⟩

/-- The loop: division of BigInts truncates, and the last bucket gets what is not yet assigned. -/
def splitLoop (total bpsTotal assigned : ℤ) : List Bucket → List Share
  | [] => []
  | [b] => [b.share (total - assigned)]
  | b :: rest =>
    let amount := (total * b.bps).tdiv bpsTotal
    b.share amount :: splitLoop total bpsTotal (assigned + amount) rest

def splitFee (feeAmount : ℤ) (split : Split) : List Share :=
  splitLoop feeAmount (if split.totalBps = 0 then totalBps else split.totalBps) 0 split.buckets

/-! ## Valid splits -/

/-- `totalBps` is the sum, as `resolveSplit` computes it, and no error is found. -/
structure Accepted (split : Split) : Prop where
  resolved : split.totalBps = (split.buckets.map Bucket.bps).sum
  valid : ∃ requireAddresses, validateSplit split requireAddresses = []

variable {b : Bucket} {s : Share} {split : Split}

theorem Accepted.total (h : Accepted split) : split.totalBps = totalBps := by
  obtain ⟨requireAddresses, hvalid⟩ := h.valid
  unfold validateSplit at hvalid
  by_contra hne
  rw [if_pos hne] at hvalid
  simp at hvalid

theorem Accepted.nonneg (h : Accepted split) : ∀ b ∈ split.buckets, 0 ≤ b.bps := by
  obtain ⟨requireAddresses, hvalid⟩ := h.valid
  intro b hb
  by_contra hneg
  have herrors := List.append_eq_nil_iff.1 hvalid
  have hbucket := List.flatMap_eq_nil_iff.1 herrors.2 b hb
  unfold bucketErrors at hbucket
  rw [if_pos (not_le.1 hneg)] at hbucket
  simp at hbucket

theorem Accepted.sum (h : Accepted split) : (split.buckets.map Bucket.bps).sum = totalBps :=
  h.resolved.symm.trans h.total

/-! ## Floored shares -/

def floorShare (fee : ℤ) (b : Bucket) : ℤ := fee * b.bps / totalBps

theorem tdiv_floorShare {fee : ℤ} (hfee : 0 ≤ fee) (hb : 0 ≤ b.bps) : (fee * b.bps).tdiv totalBps = floorShare fee b :=
  Int.tdiv_eq_ediv_of_nonneg (mul_nonneg hfee hb)

/-- What is left of the fee. -/
def remainder (fee : ℤ) (buckets : List Bucket) : ℤ := fee - (buckets.map (floorShare fee)).sum

theorem splitLoop_concat {fee : ℤ} (hfee : 0 ≤ fee) {init : List Bucket} (last : Bucket) (assigned : ℤ)
    (hinit : ∀ b ∈ init, 0 ≤ b.bps) : splitLoop fee totalBps assigned (init ++ [last])
      = init.map (fun b => b.share (floorShare fee b))
        ++ [last.share (fee - assigned - (init.map (floorShare fee)).sum)] := by
  induction init generalizing assigned with
  | nil =>
    show [last.share (fee - assigned)] = [last.share (fee - assigned - 0)]
    rw [Int.sub_zero]
  | cons b rest ih =>
    have hb := hinit b (List.mem_cons_self ..)
    have hstep : splitLoop fee totalBps assigned (b :: (rest ++ [last]))
        = b.share ((fee * b.bps).tdiv totalBps) :: splitLoop fee totalBps
          (assigned + (fee * b.bps).tdiv totalBps) (rest ++ [last]) := by
      cases rest <;> rfl
    rw [List.cons_append, hstep, ih _ fun b' hb' => hinit b' (List.mem_cons_of_mem _ hb'),
      tdiv_floorShare hfee hb, List.map_cons,
      List.map_cons, List.sum_cons, List.cons_append, ← Int.sub_sub, ← Int.sub_sub]

theorem cut_off (fee : ℤ) (buckets : List Bucket) : fee * (buckets.map Bucket.bps).sum
      = totalBps * (buckets.map (floorShare fee)).sum + (buckets.map fun b => fee * b.bps % totalBps).sum := by
  induction buckets with
  | nil =>
    show fee * 0 = totalBps * 0 + 0
    rw [mul_zero, mul_zero, add_zero]
  | cons b rest ih =>
    have hb : totalBps * floorShare fee b + fee * b.bps % totalBps = fee * b.bps := Int.mul_ediv_add_emod _ _
    simp only [List.map_cons, List.sum_cons]
    linarith

theorem cut_off_bounds (fee : ℤ) (buckets : List Bucket) : 0 ≤ (buckets.map fun b => fee * b.bps % totalBps).sum
      ∧ (buckets.map fun b => fee * b.bps % totalBps).sum ≤ (totalBps - 1) * buckets.length := by
  induction buckets with
  | nil => exact ⟨le_refl _, le_refl _⟩
  | cons b rest ih =>
    have hlow : 0 ≤ fee * b.bps % totalBps := Int.emod_nonneg _ (by decide)
    have hhigh : fee * b.bps % totalBps < totalBps := Int.emod_lt_of_pos _ (by decide)
    simp only [List.map_cons, List.sum_cons, List.length_cons, Nat.cast_add, Nat.cast_one]
    unfold totalBps at *
    constructor <;> linarith [ih.1, ih.2]

/-- Nothing is cut off exactly when every share is whole. -/
theorem cut_off_zero_iff (fee : ℤ) (buckets : List Bucket) :
    (buckets.map fun b => fee * b.bps % totalBps).sum = 0 ↔ ∀ b ∈ buckets, totalBps ∣ fee * b.bps := by
  induction buckets with
  | nil => exact ⟨fun _ _ hb => (List.not_mem_nil hb).elim, fun _ => rfl⟩
  | cons b rest ih =>
    have hlow : 0 ≤ fee * b.bps % totalBps := Int.emod_nonneg _ (by decide)
    have hrest := (cut_off_bounds fee rest).1
    rw [List.map_cons, List.sum_cons, List.forall_mem_cons, ← ih, Int.dvd_iff_emod_eq_zero]
    constructor
    · intro h
      constructor <;> linarith
    · rintro ⟨hb, hsum⟩
      rw [hb, hsum]
      rfl

section Remainder

variable {fee : ℤ} {buckets : List Bucket}

theorem remainder_eq (hsum : (buckets.map Bucket.bps).sum = totalBps) :
    totalBps * remainder fee buckets = (buckets.map fun b => fee * b.bps % totalBps).sum := by
  have hcut := cut_off fee buckets
  rw [hsum] at hcut
  unfold remainder
  linarith

theorem remainder_bounds (hsum : (buckets.map Bucket.bps).sum = totalBps) (hne : buckets ≠ []) :
    0 ≤ remainder fee buckets ∧ remainder fee buckets < buckets.length := by
  have hrem := @remainder_eq fee _ hsum
  obtain ⟨hlow, hhigh⟩ := cut_off_bounds fee buckets
  have hpos : (0 : ℤ) < buckets.length := Int.natCast_pos.2 (List.length_pos_iff.2 hne)
  unfold totalBps at *
  constructor <;> linarith

theorem remainder_zero_iff (hsum : (buckets.map Bucket.bps).sum = totalBps) :
    remainder fee buckets = 0 ↔ ∀ b ∈ buckets, totalBps ∣ fee * b.bps := by
  rw [← cut_off_zero_iff, ← remainder_eq hsum]
  unfold totalBps
  constructor <;> intro h <;> linarith

end Remainder

/-! ## The report as shares -/

/-- A floored share each, and the last bucket with the remainder. -/
theorem splitFee_eq {fee : ℤ} (hfee : 0 ≤ fee) (h : Accepted split) : ∃ init last,
    split.buckets = init ++ [last] ∧ splitFee fee split
      = init.map (fun b => b.share (floorShare fee b))
        ++ [last.share (floorShare fee last + remainder fee split.buckets)] := by
  rcases List.eq_nil_or_concat split.buckets with hnil | ⟨init, last, hconcat⟩
  · -- no buckets sum to nothing
    have hsum := h.sum
    rw [hnil] at hsum
    exact absurd hsum (by decide)
  · rw [List.concat_eq_append] at hconcat
    refine ⟨init, last, hconcat, ?_⟩
    have hinit : ∀ b ∈ init, 0 ≤ b.bps := fun b hb => h.nonneg b (hconcat ▸ List.mem_append_left _ hb)
    unfold splitFee remainder
    rw [h.total, if_neg (by decide), hconcat, splitLoop_concat hfee last 0 hinit, List.map_append,
      List.sum_append, List.map_singleton,
      List.sum_singleton]
    congr 4
    omega

/-! ## Fairness -/

/-- The last bucket has a share. -/
def LastActive (split : Split) : Prop := ∃ b ∈ split.buckets.getLast?, 0 < b.bps

/-- **FAIR**: exact, nothing to a bucket without a share, a floored share to the others, the remainder to the last of
    them, and what the Split on the chain pays, up to dust. -/
structure Fair (fee : ℤ) (split : Split) (shares : List Share) : Prop where
  rows : List.Forall₂ (fun b s => s = b.share s.amount) split.buckets shares
  exact : (shares.map Share.amount).sum = fee
  idle : ∀ s ∈ shares, s.bps = 0 → s.amount = 0
  bounds : ∀ s ∈ shares, 0 < s.bps → fee * s.bps / totalBps ≤ s.amount
    ∧ s.amount < fee * s.bps / totalBps + shares.length
  placed : ∀ before s after, shares = before ++ s :: after → 0 < s.bps → (∃ s' ∈ after, 0 < s'.bps)
    → s.amount = fee * s.bps / totalBps
  paid : (∀ b ∈ split.buckets, 0 < b.bps → b.hasAddress = true) → ∀ incentive,
    List.Forall₂ (fun (paid : ℤ) (s : Share) => paid ≤ s.amount ∧ s.amount < paid + shares.length)
      ((toSplitsV2Config split incentive).pays fee) (shares.filter fun s => 0 < s.bps)

/-! ## When the report is fair -/

theorem sum_active {buckets : List Bucket} (h : ∀ b ∈ buckets, 0 ≤ b.bps) :
    ((buckets.filter fun b => 0 < b.bps).map Bucket.bps).sum = (buckets.map Bucket.bps).sum := by
  induction buckets with
  | nil => rfl
  | cons b rest ih =>
    have hrest := ih fun b' hb' => h b' (List.mem_cons_of_mem _ hb')
    have hb := h b (List.mem_cons_self ..)
    rw [List.map_cons, List.sum_cons, ← hrest]
    by_cases hpos : 0 < b.bps
    · rw [List.filter_cons_of_pos (by simpa using hpos), List.map_cons, List.sum_cons]
    · rw [List.filter_cons_of_neg (by simpa using hpos)]
      omega

theorem pays_eq {fee : ℤ} (h : Accepted split) (haddress : ∀ b ∈ split.buckets, 0 < b.bps → b.hasAddress = true)
    (incentive : Option ℤ) :
    (toSplitsV2Config split incentive).pays fee = (split.buckets.filter fun b => 0 < b.bps).map (floorShare fee) := by
  have hactive : (split.buckets.filter fun b => b.bps > 0 && b.hasAddress)
    = split.buckets.filter fun b => 0 < b.bps := by
    refine List.filter_congr fun b hb => ?_
    by_cases hpos : 0 < b.bps
    · simp [hpos, haddress b hb hpos]
    · simp [hpos]
  unfold SplitsV2Config.pays toSplitsV2Config
  dsimp only
  rw [hactive, sum_active h.nonneg, h.sum, List.map_map]
  rfl

theorem floorShare_zero {fee : ℤ} (h : b.bps = 0) : floorShare fee b = 0 := by
  rw [floorShare, h, mul_zero, Int.zero_ediv]

section Report

variable {fee rest : ℤ} {init : List Bucket} {last : Bucket}

/-- Floored shares, and `rest` for the last bucket on top of its own. -/
def report (fee rest : ℤ) (init : List Bucket) (last : Bucket) : List Share :=
  init.map (fun b => b.share (floorShare fee b)) ++ [last.share (floorShare fee last + rest)]

theorem length_report : (report fee rest init last).length = (init ++ [last]).length := by
  simp [report]

theorem mem_report (h : s ∈ report fee rest init last) :
    s = last.share (floorShare fee last + rest) ∨ ∃ b ∈ init, s = b.share (floorShare fee b) := by
  rcases List.mem_append.1 h with hinit | hlast
  · obtain ⟨b, hb, rfl⟩ := List.mem_map.1 hinit
    exact Or.inr ⟨b, hb, rfl⟩
  · exact Or.inl (List.mem_singleton.1 hlast)

theorem report_rows : List.Forall₂ (fun b s => s = b.share s.amount) (init ++ [last]) (report fee rest init last) := by
  refine List.rel_append ?_ (List.Forall₂.cons rfl List.Forall₂.nil)
  rw [List.forall₂_map_right_iff, List.forall₂_same]
  exact fun b _ => rfl

theorem report_placed {before after : List Share} {s' : Share} (h : report fee rest init last = before ++ s :: after)
    (hafter : s' ∈ after) : s.amount = fee * s.bps / totalBps := by
  rcases List.eq_nil_or_concat after with rfl | ⟨after, x, rfl⟩
  · exact (List.not_mem_nil hafter).elim
  · rw [report, List.concat_eq_append, ← List.cons_append, ← List.append_assoc] at h
    have hinit := (List.append_inj' h rfl).1
    have hs : s ∈ init.map fun b => b.share (floorShare fee b) :=
      hinit ▸ List.mem_append_right _ (List.mem_cons_self ..)
    obtain ⟨b, -, rfl⟩ := List.mem_map.1 hs
    rfl

/-- The rows with a share, next to the floored shares of their buckets. -/
theorem report_active {n : ℤ} (hlow : 0 ≤ rest) (hhigh : rest < n) :
    List.Forall₂ (fun (paid : ℤ) (s : Share) => paid ≤ s.amount ∧ s.amount < paid + n)
      (((init ++ [last]).filter fun b => 0 < b.bps).map (floorShare fee))
        ((report fee rest init last).filter fun s => 0 < s.bps) := by
  rw [report, List.filter_append, List.filter_append, List.map_append, List.filter_map]
  refine List.rel_append ?_ ?_
  · rw [List.forall₂_map_left_iff, List.forall₂_map_right_iff]
    refine List.forall₂_same.2 fun b _ => ?_
    show floorShare fee b ≤ floorShare fee b ∧ floorShare fee b < floorShare fee b + n
    constructor <;> omega
  · by_cases hpos : 0 < last.bps
    · have hrow : 0 < (last.share (floorShare fee last + rest)).bps := hpos
      rw [List.filter_cons_of_pos (by simpa using hpos), List.filter_cons_of_pos (by simpa using hrow)]
      refine List.Forall₂.cons ?_ List.Forall₂.nil
      show floorShare fee last ≤ floorShare fee last + rest ∧ floorShare fee last + rest < floorShare fee last + n
      constructor <;> omega
    · have hrow : ¬ 0 < (last.share (floorShare fee last + rest)).bps := hpos
      rw [List.filter_cons_of_neg (by simpa using hpos), List.filter_cons_of_neg (by simpa using hrow)]
      exact List.Forall₂.nil

end Report

/-- The floored shares, with a remainder that goes to a bucket with a share or is nothing, are fair. -/
theorem fair_report {fee : ℤ} (h : Accepted split) {init : List Bucket} {last : Bucket}
    (hbuckets : split.buckets = init ++ [last]) (hcase : 0 < last.bps ∨ remainder fee split.buckets = 0) :
    Fair fee split (report fee (remainder fee split.buckets) init last) := by
  have hne : split.buckets ≠ [] := by
    rw [hbuckets]
    simp
  obtain ⟨hlow, hhigh⟩ := @remainder_bounds fee _ h.sum hne
  have hlength : ((report fee (remainder fee split.buckets) init last).length : ℤ) = split.buckets.length := by
    rw [length_report, hbuckets]
  refine ⟨hbuckets ▸ report_rows, ?_, ?_, ?_, ?_, ?_⟩
  · have hrest : remainder fee split.buckets = fee - ((init.map (floorShare fee)).sum + floorShare fee last) := by
      rw [remainder, hbuckets, List.map_append, List.sum_append, List.map_singleton, List.sum_singleton]
    have hamounts : ((report fee (remainder fee split.buckets) init last).map Share.amount).sum
        = (init.map (floorShare fee)).sum + (floorShare fee last + remainder fee split.buckets) := by
      rw [report, List.map_append, List.sum_append, List.map_map]
      show (init.map (floorShare fee)).sum + (floorShare fee last + remainder fee split.buckets + 0) = _
      rw [add_zero]
    rw [hamounts]
    omega
  · intro s hs hzero
    rcases mem_report hs with rfl | ⟨b, -, rfl⟩
    · have hlast : last.bps = 0 := hzero
      show floorShare fee last + remainder fee split.buckets = 0
      rw [floorShare_zero hlast]
      omega
    · exact floorShare_zero hzero
  · intro s hs _
    rw [hlength]
    rcases mem_report hs with rfl | ⟨b, -, rfl⟩
    · show floorShare fee last ≤ floorShare fee last + remainder fee split.buckets
        ∧ floorShare fee last + remainder fee split.buckets < floorShare fee last + split.buckets.length
      constructor <;> omega
    · show floorShare fee b ≤ floorShare fee b ∧ floorShare fee b < floorShare fee b + split.buckets.length
      constructor <;> omega
  · rintro before s after hsplit - ⟨s', hs', -⟩
    exact report_placed hsplit hs'
  · intro haddress incentive
    have hrows := @report_active fee _ init last _ hlow hhigh
    rw [← hbuckets] at hrows
    rw [pays_eq h haddress incentive, hlength]
    exact hrows

/-- **FAIRNESS**: the report is fair exactly when the last bucket has a share or every share is whole. -/
theorem splitFee_fair_iff {fee : ℤ} {split : Split} (hfee : 0 ≤ fee) (h : Accepted split) :
    Fair fee split (splitFee fee split) ↔ LastActive split ∨ ∀ b ∈ split.buckets, totalBps ∣ fee * b.bps := by
  obtain ⟨init, last, hbuckets, hreport⟩ := splitFee_eq hfee h
  rw [hreport, ← remainder_zero_iff h.sum]
  have hactive : LastActive split ↔ 0 < last.bps := by
    unfold LastActive
    rw [hbuckets, List.getLast?_concat]
    exact ⟨fun ⟨b, hb, hpos⟩ => Option.some.inj hb ▸ hpos, fun hpos => ⟨last, rfl, hpos⟩⟩
  rw [hactive]
  constructor
  · intro hfair
    have hlast := h.nonneg last (hbuckets ▸ List.mem_append_right _ (List.mem_singleton_self last))
    rcases Int.lt_or_eq_of_le hlast with hpos | hzero
    · exact Or.inl hpos
    · have hidle := hfair.idle _ (List.mem_append_right _ (List.mem_singleton_self _)) hzero.symm
      have hamount : floorShare fee last + remainder fee split.buckets = 0 := hidle
      rw [floorShare_zero hzero.symm] at hamount
      exact Or.inr (by omega)
  · exact fair_report h hbuckets

/-- The stakers' share turned off. -/
def noStakers : Split where
  buckets := [⟨"treasury", "Treasury / Ops", none, 5000⟩, ⟨"buyback", "XF Buyback-Burn (Base, post-TGE)", none, 5000⟩,
    ⟨"stakers", "veXF Stakers (optional USDC yield)", none, 0⟩]
  totalBps := 10000

theorem noStakers_accepted : Accepted noStakers := ⟨rfl, false, by decide +kernel⟩

/-- A fee of one goes to the bucket without a share. -/
theorem unit_to_idle_bucket : (splitFee 1 noStakers).map Share.amount = [0, 0, 1]
    ∧ ¬ Fair 1 noStakers (splitFee 1 noStakers) := by
  have hamounts : (splitFee 1 noStakers).map Share.amount = [0, 0, 1] := by decide +kernel
  refine ⟨hamounts, fun hfair => ?_⟩
  have hidle := hfair.idle ⟨"stakers", "veXF Stakers (optional USDC yield)", none, 0, 1⟩ (by decide +kernel) rfl
  exact absurd hidle (by decide)

/-- An even fee leaves nothing, and the report is fair. -/
theorem splitFee_fair_iff_sample : Fair 2 noStakers (splitFee 2 noStakers) :=
  (splitFee_fair_iff (by decide) noStakers_accepted).2 (Or.inr (by decide))

end RevenueSplit
