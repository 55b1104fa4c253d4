import Chit402.VeXFGovernanceProofs

/-! # The votes of a token

    A lock ends on a week boundary and lasts at least 26 weeks, and a vote
    is open for three days.  So a token that was voted can leave its lock at
    most once while a vote is open, at the one boundary in it, and what is
    left of a lock before that boundary and the longest lock after it make
    up one full lock.  The tokens are voted twice; the votes are not too
    many. -/

namespace VeXFVotes

open ExceptFlow Solidity Function VeXFGovernance Finset

/-! ## What a transaction does -/

/-- `added` tokens of `u` came in, and `l'` is its lock from now on. -/
structure Took (u : Address) (added t : Nat) (l' : Lock) (w : World) : Prop where
  enough : added ≤ w.balance u
  amount : l'.amount = (w.gov.locks u).amount + added
  later : (w.gov.locks u).amount ≠ 0 → (w.gov.locks u).unlockTime ≤ l'.unlockTime
  week : oneWeek ∣ l'.unlockTime
  near : l'.unlockTime ≤ t + maxLock

/-- `u` votes for the first time on an open proposal; `p` counts its power. -/
structure Voted (id : Nat) (u : Address) (power t : Nat) (p : Proposal) (w : World) : Prop where
  known : (w.gov.proposals id).id ≠ 0
  opened : t ≤ (w.gov.proposals id).endTime
  first : w.gov.hasVoted id u = false
  weight : votingPower t (w.gov.locks u) = .ok power
  positive : power ≠ 0
  same : p = { w.gov.proposals id with forVotes := p.forVotes, againstVotes := p.againstVotes }
  tally : p.forVotes + p.againstVotes
    = (w.gov.proposals id).forVotes + (w.gov.proposals id).againstVotes + power

/-- What a transaction at `t` that goes through does. -/
inductive Effect (t : Nat) (w : World) : World → Prop where
  | took (u : Address) (added lockCount : Nat) (l' : Lock) (h : Took u added t l' w) :
      Effect t w { w with
        gov := { setLock u l' w.gov with totalLocked := w.gov.totalLocked + added, lockCount := lockCount }
        balance := update w.balance u (w.balance u - added)
        held := w.held + added
        putIn := update w.putIn u (w.putIn u + added) }
  | returned (u : Address) (hexpired : (w.gov.locks u).unlockTime ≤ t)
      (htotal : (w.gov.locks u).amount ≤ w.gov.totalLocked) (hheld : (w.gov.locks u).amount ≤ w.held) :
      Effect t w { w with
        gov := { setLock u noLock w.gov with totalLocked := w.gov.totalLocked - (w.gov.locks u).amount }
        balance := update w.balance u (w.balance u + (w.gov.locks u).amount)
        held := w.held - (w.gov.locks u).amount
        putIn := update w.putIn u 0 }
  | proposed (p : Proposal) (hid : p.id = w.gov.proposalCount + 1) (hstart : p.startTime = t)
      (hend : p.endTime = t + votingPeriod)
      (hfor : p.forVotes = (w.gov.proposals (w.gov.proposalCount + 1)).forVotes)
      (hagainst : p.againstVotes = (w.gov.proposals (w.gov.proposalCount + 1)).againstVotes) :
      Effect t w (w.put { w.gov with
        proposalCount := w.gov.proposalCount + 1
        proposals := update w.gov.proposals (w.gov.proposalCount + 1) p })
  | voted (id : Nat) (u : Address) (weight : Nat) (p : Proposal) (used : Word → Bool) (h : Voted id u weight t p w) :
      Effect t w { w with
        gov := { w.gov with
          usedVoteNullifiers := used
          hasVoted := update w.gov.hasVoted id (update (w.gov.hasVoted id) u true)
          proposals := update w.gov.proposals id p }
        ballots := update w.ballots id (update (w.ballots id) u (castNow t (w.gov.locks u))) }
  | moved (src dst : Address) (amount : Nat) (h : amount ≤ w.balance src) :
      Effect t w { w with
        balance := update (update w.balance src (w.balance src - amount)) dst
          (update w.balance src (w.balance src - amount) dst + amount) }
  | donated (src : Address) (amount : Nat) (h : amount ≤ w.balance src) :
      Effect t w { w with
        balance := update w.balance src (w.balance src - amount)
        held := w.held + amount
        donated := w.donated + amount }

/-- The widths of the lock record hold what the transaction writes to it. -/
def Fits (tx : Tx) : Prop :=
  match tx.call with
  | .lock amount unlockTime => amount < 2 ^ 128 ∧ unlockTime / oneWeek * oneWeek < 2 ^ 64
  | .increaseLock added => added < 2 ^ 128
  | .extendLock newUnlockTime => newUnlockTime / oneWeek * oneWeek < 2 ^ 64
  | _ => True

instance (tx : Tx) : Decidable (Fits tx) := by
  unfold Fits
  split <;> infer_instance

variable {keccak256 : List UInt8 → Word} {sender u : Address} {now t : Nat} {w w' : World}

variable {approved support : Bool} {added amount id weight : Nat} {tx : Tx}

theorem pullTokens_ok (h : pullTokens sender amount approved w = .ok w') : amount ≤ w.balance sender ∧ w' = { w with
      balance := update w.balance sender (w.balance sender - amount)
      held := w.held + amount
      putIn := update w.putIn sender (w.putIn sender + amount) } := by
  rw [pullTokens, guarded_iff] at h
  obtain ⟨hguard, h⟩ := h
  exact ⟨Nat.not_lt.mp fun hlt => hguard (.inr hlt), (Except.ok.inj h).symm⟩

theorem writeLock_ok {l : Lock} {s : State} (h : writeLock sender now l s w = .ok w') :
    w' = w.put (setLock sender l s) := by
  rw [writeLock, bind_iff] at h
  obtain ⟨-, -, h⟩ := h
  exact (Except.ok.inj h).symm

theorem votingPower_ok {l : Lock} (h : votingPower t l = .ok weight) (hpos : weight ≠ 0) :
    l.amount ≠ 0 ∧ t < l.unlockTime ∧ weight = l.amount * maxMultiplier * (l.unlockTime - t) / maxLock := by
  rw [votingPower] at h
  split at h
  · exact absurd (Except.ok.inj h).symm hpos
  · rename_i hlive
    obtain ⟨scaled, hscaled, h⟩ := bind_iff.mp h
    obtain ⟨total, htotal, h⟩ := bind_iff.mp h
    obtain ⟨-, rfl⟩ := mulU_ok_iff.mp hscaled
    obtain ⟨-, rfl⟩ := mulU_ok_iff.mp htotal
    rw [not_or, Nat.not_le] at hlive
    exact ⟨hlive.1, hlive.2, (Except.ok.inj h).symm⟩

theorem lock_ok {unlockTime : Nat} (hamount : amount < 2 ^ 128) (hunlock : unlockTime / oneWeek * oneWeek < 2 ^ 64)
    (h : lock sender t amount unlockTime approved w = .ok w') : Effect t w w' := by
  rw [lock, guarded_iff] at h
  obtain ⟨-, h⟩ := h
  obtain ⟨duration, hduration, h⟩ := bind_iff.mp h
  obtain ⟨hle, rfl⟩ := subU_ok_iff.mp hduration
  rw [guarded_iff, guarded_iff, guarded_iff] at h
  obtain ⟨-, hlong, hnone, h⟩ := h
  obtain ⟨taken, htaken, h⟩ := bind_iff.mp h
  obtain ⟨hbalance, rfl⟩ := pullTokens_ok htaken
  obtain ⟨total, htotal, h⟩ := bind_iff.mp h
  obtain ⟨-, rfl⟩ := addU_ok_iff.mp htotal
  obtain ⟨lockCount, -, h⟩ := bind_iff.mp h
  obtain rfl := writeLock_ok h
  refine .took sender amount lockCount _ ⟨hbalance, ?_, fun hsome => absurd hsome hnone, ?_, ?_⟩
  · show amount % 2 ^ 128 = (w.gov.locks sender).amount + amount
    rw [Nat.mod_eq_of_lt hamount, not_not.mp hnone, Nat.zero_add]
  · show oneWeek ∣ unlockTime / oneWeek * oneWeek % 2 ^ 64
    rw [Nat.mod_eq_of_lt hunlock]
    exact Nat.dvd_mul_left ..
  · show unlockTime / oneWeek * oneWeek % 2 ^ 64 ≤ t + maxLock
    rw [Nat.mod_eq_of_lt hunlock]
    omega

theorem addAmount_ok {l l' : Lock} (hadded : added < 2 ^ 128) (h : addAmount added l = .ok l') :
    l' = { l with amount := l.amount + added } := by
  rw [addAmount, guarded_iff, Nat.mod_eq_of_lt hadded] at h
  exact (Except.ok.inj h.2).symm

/-- Every lock ends on a week boundary, at most the longest lock from now. -/
structure Locked (w : World) : Prop where
  week : ∀ u, oneWeek ∣ (w.gov.locks u).unlockTime
  near : ∀ u, (w.gov.locks u).unlockTime ≤ w.now + maxLock

theorem increaseLock_ok (hadded : added < 2 ^ 128) (hw : Locked w) (hnow : w.now ≤ t)
    (h : increaseLock sender t added approved w = .ok w') : Effect t w w' := by
  rw [increaseLock, guarded_iff, guarded_iff, guarded_iff] at h
  obtain ⟨-, -, -, h⟩ := h
  obtain ⟨taken, htaken, h⟩ := bind_iff.mp h
  obtain ⟨hbalance, rfl⟩ := pullTokens_ok htaken
  obtain ⟨l, hl, h⟩ := bind_iff.mp h
  obtain rfl := addAmount_ok hadded hl
  obtain ⟨total, htotal, h⟩ := bind_iff.mp h
  obtain ⟨-, rfl⟩ := addU_ok_iff.mp htotal
  obtain rfl := writeLock_ok h
  refine .took sender added w.gov.lockCount _ ⟨hbalance, rfl, fun _ => Nat.le_refl _, hw.week sender, ?_⟩
  exact Nat.le_trans (hw.near sender) (Nat.add_le_add_right hnow _)

theorem extendLock_ok {newUnlockTime : Nat} (hunlock : newUnlockTime / oneWeek * oneWeek < 2 ^ 64)
    (h : extendLock sender t newUnlockTime w = .ok w') : Effect t w w' := by
  rw [extendLock, guarded_iff, guarded_iff] at h
  obtain ⟨-, hlonger, h⟩ := h
  obtain ⟨duration, hduration, h⟩ := bind_iff.mp h
  obtain ⟨hle, rfl⟩ := subU_ok_iff.mp hduration
  rw [guarded_iff] at h
  obtain ⟨hlong, h⟩ := h
  obtain rfl := writeLock_ok h
  rw [Nat.mod_eq_of_lt hunlock]
  -- nothing comes in, so only the lock changes
  have heffect := Effect.took (t := t) (w := w) sender 0 w.gov.lockCount
    { w.gov.locks sender with unlockTime := newUnlockTime / oneWeek * oneWeek }
    ⟨Nat.zero_le _, rfl, fun _ => by show _ ≤ newUnlockTime / oneWeek * oneWeek; omega, Nat.dvd_mul_left ..,
      by show newUnlockTime / oneWeek * oneWeek ≤ _; omega⟩
  simp only [Nat.sub_zero, Nat.add_zero, update_eq_self] at heffect
  exact heffect

theorem unlock_ok (h : unlock sender t w = .ok w') : Effect t w w' := by
  rw [unlock, guarded_iff, guarded_iff] at h
  obtain ⟨-, hexpired, h⟩ := h
  obtain ⟨total, htotal, h⟩ := bind_iff.mp h
  obtain ⟨hle, rfl⟩ := subU_ok_iff.mp htotal
  rw [pushTokens, guarded_iff] at h
  obtain ⟨hheld, h⟩ := h
  cases h
  exact .returned sender (Nat.not_lt.mp hexpired) hle (Nat.not_lt.mp hheld)

theorem createProposal_ok {pType : ProposalType} {targetCircuit : Word} {description : String}
    {executionData : List UInt8}
    (h : createProposal sender t pType targetCircuit description executionData w = .ok w') : Effect t w w' := by
  rw [createProposal] at h
  obtain ⟨power, -, h⟩ := bind_iff.mp h
  rw [guarded_iff] at h
  obtain ⟨-, h⟩ := h
  obtain ⟨id, hid, h⟩ := bind_iff.mp h
  obtain ⟨-, rfl⟩ := addU_ok_iff.mp hid
  obtain ⟨endTime, hend, h⟩ := bind_iff.mp h
  obtain ⟨-, rfl⟩ := addU_ok_iff.mp hend
  cases h
  exact .proposed _ rfl rfl rfl rfl rfl

theorem count_ok {p p' : Proposal} (h : count support weight p = .ok p') :
    p' = { p with forVotes := p'.forVotes, againstVotes := p'.againstVotes }
      ∧ p'.forVotes + p'.againstVotes = p.forVotes + p.againstVotes + weight := by
  cases support with
  | true =>
    obtain ⟨votes, hvotes, h⟩ := bind_iff.mp h
    obtain ⟨-, rfl⟩ := addU_ok_iff.mp hvotes
    cases h
    exact ⟨rfl, Nat.add_right_comm ..⟩
  | false =>
    obtain ⟨votes, hvotes, h⟩ := bind_iff.mp h
    obtain ⟨-, rfl⟩ := addU_ok_iff.mp hvotes
    cases h
    exact ⟨rfl, (Nat.add_assoc ..).symm⟩

theorem vote_ok (h : vote keccak256 sender t id support w = .ok w') : Effect t w w' := by
  rw [vote, guarded_iff, guarded_iff, guarded_iff] at h
  obtain ⟨hexists, hopen, hfirst, h⟩ := h
  obtain ⟨weight, hweight, h⟩ := bind_iff.mp h
  rw [guarded_iff, guarded_iff] at h
  obtain ⟨hpos, -, h⟩ := h
  obtain ⟨p, hp, h⟩ := bind_iff.mp h
  obtain ⟨hsame, htally⟩ := count_ok hp
  cases h
  exact .voted id sender weight p _
    ⟨hexists, Nat.not_lt.mp hopen, Bool.eq_false_iff.mpr hfirst, hweight, hpos, hsame, htally⟩

theorem transfer_ok {dst : Address} (h : transfer sender dst amount w = .ok w') : Effect t w w' := by
  rw [transfer, guarded_iff] at h
  obtain ⟨henough, h⟩ := h
  cases h
  exact .moved sender dst amount (Nat.not_lt.mp henough)

theorem donate_ok (h : donate sender amount w = .ok w') : Effect t w w' := by
  rw [donate, guarded_iff] at h
  obtain ⟨henough, h⟩ := h
  cases h
  exact .donated sender amount (Nat.not_lt.mp henough)

/-- **WHAT A TRANSACTION DOES**: one of six things, if its numbers fit. -/
theorem exec_ok (hfits : Fits tx) (hw : Locked w) (hnow : w.now ≤ tx.timestamp) (h : exec keccak256 tx w = .ok w') :
    Effect tx.timestamp w w' := by
  obtain ⟨sender, t, call, approved⟩ := tx
  cases call with
  | lock amount unlockTime => exact lock_ok hfits.1 hfits.2 h
  | increaseLock added => exact increaseLock_ok hfits hw hnow h
  | extendLock newUnlockTime => exact extendLock_ok hfits h
  | unlock => exact unlock_ok h
  | createProposal pType targetCircuit description executionData => exact createProposal_ok h
  | vote id support => exact vote_ok h
  | transfer dst amount => exact transfer_ok h
  | donate amount => exact donate_ok h

/-! ## Books -/

variable {supply : Nat}

/-- Every token is with an account or in the contract, and the contract holds the locks
    and what it was sent. -/
structure Books (supply : Nat) (w : World) : Prop extends Locked w where
  supply : w.supply = supply
  held : w.held = w.gov.totalLocked + w.donated
  total : w.gov.totalLocked = ∑ u, (w.gov.locks u).amount
  owed : ∀ u, (w.gov.locks u).amount = w.putIn u

theorem sum_locks (locks : Address → Lock) (u : Address) (l : Lock) :
    ∑ x, (update locks u l x).amount + (locks u).amount = ∑ x, (locks x).amount + l.amount :=
  FiniteSum.sum_update (mem_univ u) (fun _ l => l.amount) locks l

theorem Took.locked {l' : Lock} (h : Took u added t l' w) (hnow : w.now ≤ t) (hw : Locked w) (x : Address) :
    oneWeek ∣ (update w.gov.locks u l' x).unlockTime ∧ (update w.gov.locks u l' x).unlockTime ≤ t + maxLock := by
  by_cases hx : x = u
  · rw [hx, update_self]
    exact ⟨h.week, h.near⟩
  · rw [update_of_ne hx]
    exact ⟨hw.week x, Nat.le_trans (hw.near x) (Nat.add_le_add_right hnow _)⟩

/-- Every transaction keeps the books. -/
theorem Effect.books (h : Effect t w w') (hnow : w.now ≤ t) (hw : Books supply w) :
    Books supply { w' with now := t } := by
  have hnear : ∀ x, (w.gov.locks x).unlockTime ≤ t + maxLock := fun x =>
    Nat.le_trans (hw.near x) (Nat.add_le_add_right hnow _)
  have hsupply := hw.supply
  have hheld := hw.held
  rw [World.supply] at hsupply
  -- what leaves one account reaches another or the contract
  cases h with
  | took u added lockCount l' h =>
    have hbalance := FiniteSum.sum_update_univ w.balance u (w.balance u - added)
    have hlocks := sum_locks w.gov.locks u l'
    have := h.enough
    have := h.amount
    refine ⟨⟨fun x => (h.locked hnow hw.toLocked x).1, fun x => (h.locked hnow hw.toLocked x).2⟩,
      ?_, ?_, ?_, fun x => ?_⟩
    · show ∑ x, update w.balance u (w.balance u - added) x + (w.held + added) = supply
      omega
    · show w.held + added = w.gov.totalLocked + added + w.donated
      omega
    · show w.gov.totalLocked + added = ∑ x, (update w.gov.locks u l' x).amount
      rw [hw.total]
      omega
    · show (update w.gov.locks u l' x).amount = update w.putIn u (w.putIn u + added) x
      by_cases hx : x = u
      · rw [hx, update_self, update_self, h.amount, hw.owed]
      · rw [update_of_ne hx, update_of_ne hx, hw.owed]
  | returned u hexpired htotal henough =>
    have hbalance := FiniteSum.sum_update_univ w.balance u (w.balance u + (w.gov.locks u).amount)
    have hlocks := sum_locks w.gov.locks u noLock
    refine ⟨⟨fun x => ?_, fun x => ?_⟩, ?_, ?_, ?_, fun x => ?_⟩
    · show oneWeek ∣ (update w.gov.locks u noLock x).unlockTime
      by_cases hx : x = u
      · rw [hx, update_self]
        exact Nat.dvd_zero _
      · rw [update_of_ne hx]
        exact hw.week x
    · show (update w.gov.locks u noLock x).unlockTime ≤ t + maxLock
      by_cases hx : x = u
      · rw [hx, update_self]
        exact Nat.zero_le _
      · rw [update_of_ne hx]
        exact hnear x
    · show ∑ x, update w.balance u (w.balance u + (w.gov.locks u).amount) x + (w.held - (w.gov.locks u).amount) = supply
      omega
    · show w.held - (w.gov.locks u).amount = w.gov.totalLocked - (w.gov.locks u).amount + w.donated
      omega
    · show w.gov.totalLocked - (w.gov.locks u).amount = ∑ x, (update w.gov.locks u noLock x).amount
      rw [show noLock.amount = 0 from rfl, Nat.add_zero] at hlocks
      rw [hw.total, ← hlocks, Nat.add_sub_cancel]
    · show (update w.gov.locks u noLock x).amount = update w.putIn u 0 x
      by_cases hx : x = u
      · rw [hx, update_self, update_self]
        rfl
      · rw [update_of_ne hx, update_of_ne hx, hw.owed]
  | proposed | voted => exact ⟨⟨hw.week, hnear⟩, hw.supply, hw.held, hw.total, hw.owed⟩
  | moved src dst amount h =>
    have hout := FiniteSum.sum_update_univ w.balance src (w.balance src - amount)
    have hin := FiniteSum.sum_update_univ (update w.balance src (w.balance src - amount)) dst
      (update w.balance src (w.balance src - amount) dst + amount)
    refine ⟨⟨hw.week, hnear⟩, ?_, hw.held, hw.total, hw.owed⟩
    show ∑ x, update (update w.balance src (w.balance src - amount)) dst
      (update w.balance src (w.balance src - amount) dst + amount) x + w.held = supply
    omega
  | donated src amount h =>
    have hout := FiniteSum.sum_update_univ w.balance src (w.balance src - amount)
    refine ⟨⟨hw.week, hnear⟩, ?_, ?_, hw.total, hw.owed⟩
    · show ∑ x, update w.balance src (w.balance src - amount) x + (w.held + amount) = supply
      omega
    · show w.held + amount = w.gov.totalLocked + (w.donated + amount)
      omega

theorem Books.locked_le (h : Books supply w) : ∑ u, (w.gov.locks u).amount ≤ supply := by
  have hsupply := h.supply
  have hheld := h.held
  rw [World.supply] at hsupply
  rw [← h.total]
  omega

/-! ## Ballots -/

/-- The last week boundary up to `endTime`. -/
def boundary (endTime : Nat) : Nat := endTime / oneWeek * oneWeek

def ballotWeight (b : Ballot) : Nat := b.amount * maxMultiplier * (b.unlockTime - b.votedAt) / maxLock

/-- The tokens of a ballot cast before `time`. -/
def amountBefore (time : Nat) (b : Ballot) : Nat := if b.votedAt < time then b.amount else 0

/-- The tokens of a ballot whose lock lasts beyond `time`. -/
def amountBeyond (time : Nat) (b : Ballot) : Nat := if time < b.unlockTime then b.amount else 0

/-- A ballot of a proposal, and the lock of its voter at `now`: until the lock it was cast
    with runs out, its tokens are still locked. -/
structure Cast (p : Proposal) (now : Nat) (l : Lock) (b : Ballot) : Prop where
  after : p.startTime ≤ b.votedAt
  before : b.votedAt ≤ p.endTime
  past : b.votedAt ≤ now
  live : b.votedAt < b.unlockTime
  week : oneWeek ∣ b.unlockTime
  near : b.unlockTime ≤ b.votedAt + maxLock
  stays : now < b.unlockTime → b.amount ≤ l.amount ∧ b.unlockTime ≤ l.unlockTime

variable {p : Proposal} {l l' : Lock} {b : Ballot}

theorem Cast.later (h : Cast p now l b) (hnow : now ≤ t)
    (hlock : t < b.unlockTime → b.amount ≤ l.amount → b.unlockTime ≤ l.unlockTime →
      l.amount ≤ l'.amount ∧ l.unlockTime ≤ l'.unlockTime) : Cast p t l' b := by
  refine ⟨h.after, h.before, Nat.le_trans h.past hnow, h.live, h.week, h.near, fun hlive => ?_⟩
  obtain ⟨hamount, hunlock⟩ := h.stays (Nat.lt_of_le_of_lt hnow hlive)
  obtain ⟨hamount', hunlock'⟩ := hlock hlive hamount hunlock
  exact ⟨Nat.le_trans hamount hamount', Nat.le_trans hunlock hunlock'⟩

theorem Cast.unlock_after (h : Cast p now l b) (hwindow : p.endTime = p.startTime + votingPeriod)
    (hnow : now < boundary p.endTime) : now < b.unlockTime := by
  obtain ⟨k, hk⟩ := h.week
  have hafter := h.after
  have hlive := h.live
  rw [boundary, oneWeek] at hnow
  rw [votingPeriod] at hwindow
  rw [oneWeek] at hk
  omega

theorem beyond_of_boundary_lt {endTime n : Nat} (hweek : oneWeek ∣ n) (h : boundary endTime < n) : endTime < n := by
  obtain ⟨k, rfl⟩ := hweek
  rw [boundary, oneWeek] at h
  rw [oneWeek]
  omega

theorem Cast.weight_mul_le (b : Ballot) :
    ballotWeight b * maxLock ≤ maxMultiplier * (b.amount * (b.unlockTime - b.votedAt)) := by
  rw [← Nat.mul_assoc, Nat.mul_comm maxMultiplier]
  exact Nat.div_mul_le_self ..

theorem Cast.weight_le_beyond (h : Cast p now l b) (hstart : boundary p.endTime ≤ p.startTime) :
    ballotWeight b ≤ maxMultiplier * amountBeyond p.endTime b := by
  have hbeyond : p.endTime < b.unlockTime :=
    beyond_of_boundary_lt h.week (Nat.lt_of_le_of_lt (Nat.le_trans hstart h.after) h.live)
  have hnear := h.near
  have hpos : 0 < maxLock := by decide
  rw [amountBeyond, if_pos hbeyond]
  refine Nat.le_of_mul_le_mul_right (Nat.le_trans (Cast.weight_mul_le b) ?_) hpos
  rw [Nat.mul_assoc]
  exact Nat.mul_le_mul_left _ (Nat.mul_le_mul_left _ (by omega))

/-- **ONE LOCK'S WORTH**: what a ballot is worth, split at the boundary.  Before it a
    lock that ends on it has at most a voting period left; after it the longest lock is
    a voting period short. -/
theorem Cast.weight_le (h : Cast p now l b) (hwindow : p.endTime = p.startTime + votingPeriod)
    (hstart : p.startTime < boundary p.endTime) :
    ballotWeight b * maxLock ≤ maxMultiplier * (votingPeriod * amountBefore (boundary p.endTime) b
      + (maxLock - votingPeriod) * amountBeyond p.endTime b) := by
  obtain ⟨k, hk⟩ := h.week
  have hafter := h.after
  have hbefore := h.before
  have hlive := h.live
  have hnear := h.near
  refine Nat.le_trans (Cast.weight_mul_le b) (Nat.mul_le_mul_left _ ?_)
  rw [amountBefore, amountBeyond]
  rw [boundary, oneWeek] at hstart ⊢
  rw [votingPeriod] at hwindow ⊢
  rw [maxLock] at hnear ⊢
  rw [oneWeek] at hk
  have hle : ∀ {n k : Nat}, n ≤ k → b.amount * n ≤ k * b.amount := by
    intro n k hnk
    rw [Nat.mul_comm b.amount]
    exact Nat.mul_le_mul_right _ hnk
  split
  · split
    · -- voted before the boundary, locked beyond it
      rw [← Nat.add_mul]
      exact hle (by omega)
    · -- the lock ends on the boundary
      rw [Nat.mul_zero, Nat.add_zero]
      exact hle (by omega)
  · split
    · -- voted after the boundary: the longest lock that ends on one is short
      rw [Nat.mul_zero, Nat.zero_add]
      exact hle (by omega)
    · omega

/-! ## Polls -/

/-- The state of the poll on `id`. -/
structure Polled (supply : Nat) (w : World) (id : Nat) : Prop where
  cast : ∀ u, (w.ballots id u).amount ≠ 0 → Cast (w.gov.proposals id) w.now (w.gov.locks u) (w.ballots id u)
  first : ∀ u, w.gov.hasVoted id u = false → w.ballots id u = noBallot
  tally : (w.gov.proposals id).forVotes + (w.gov.proposals id).againstVotes = ∑ u, ballotWeight (w.ballots id u)
  early : ∑ u, amountBefore (boundary (w.gov.proposals id).endTime) (w.ballots id u) ≤ supply
  late : ∑ u, amountBeyond (w.gov.proposals id).endTime (w.ballots id u) ≤ supply
  window : (w.gov.proposals id).id ≠ 0 → (w.gov.proposals id).startTime ≤ w.now
    ∧ (w.gov.proposals id).endTime = (w.gov.proposals id).startTime + votingPeriod
  unknown : (w.gov.proposals id).id = 0 → ∀ u, w.ballots id u = noBallot
  fresh : w.gov.proposalCount < id → (w.gov.proposals id).id = 0

theorem polled_of_none (hnone : ∀ u, w.ballots id u = noBallot)
    (htally : (w.gov.proposals id).forVotes + (w.gov.proposals id).againstVotes = 0)
    (hwindow : (w.gov.proposals id).id ≠ 0 → (w.gov.proposals id).startTime ≤ w.now
      ∧ (w.gov.proposals id).endTime = (w.gov.proposals id).startTime + votingPeriod)
    (hfresh : w.gov.proposalCount < id → (w.gov.proposals id).id = 0) : Polled supply w id := by
  have hsum : ∀ f : Ballot → Nat, f noBallot = 0 → ∑ u, f (w.ballots id u) = 0 := by
    intro f hf
    refine sum_eq_zero fun u _ => ?_
    rw [hnone u, hf]
  have hbefore : ∀ time, amountBefore time noBallot = 0 := fun time => ite_self 0
  have hbeyond : ∀ time, amountBeyond time noBallot = 0 := fun time => ite_self 0
  refine ⟨fun u hu => absurd (by rw [hnone u]; rfl) hu, fun u _ => hnone u, ?_, ?_, ?_, hwindow, fun _ => hnone, hfresh⟩
  · rw [htally, hsum ballotWeight (by rw [ballotWeight]; decide)]
  · rw [hsum _ (hbefore _)]
    exact Nat.zero_le _
  · rw [hsum _ (hbeyond _)]
    exact Nat.zero_le _

/-- A poll that only the locks and the clock change around. -/
theorem Polled.same (h : Polled supply w id) (hnow : w.now ≤ w'.now)
    (hproposals : w'.gov.proposals id = w.gov.proposals id) (hballots : w'.ballots id = w.ballots id)
    (hvoted : w'.gov.hasVoted id = w.gov.hasVoted id) (hcount : w.gov.proposalCount ≤ w'.gov.proposalCount)
    (hlocks : ∀ u, w'.now < (w.ballots id u).unlockTime → (w.ballots id u).amount ≠ 0 →
      (w.ballots id u).amount ≤ (w.gov.locks u).amount → (w.ballots id u).unlockTime ≤ (w.gov.locks u).unlockTime →
      (w.gov.locks u).amount ≤ (w'.gov.locks u).amount ∧ (w.gov.locks u).unlockTime ≤ (w'.gov.locks u).unlockTime) :
    Polled supply w' id := by
  constructor
  case cast =>
    intro u hu
    rw [hballots] at hu ⊢
    rw [hproposals]
    exact (h.cast u hu).later hnow fun hlive => hlocks u hlive hu
  case first =>
    intro u hu
    rw [hballots]
    rw [hvoted] at hu
    exact h.first u hu
  case tally =>
    rw [hproposals, hballots]
    exact h.tally
  case early =>
    rw [hproposals, hballots]
    exact h.early
  case late =>
    rw [hproposals, hballots]
    exact h.late
  case window =>
    rw [hproposals]
    intro hid
    exact ⟨Nat.le_trans (h.window hid).1 hnow, (h.window hid).2⟩
  case unknown =>
    rw [hproposals, hballots]
    exact h.unknown
  case fresh =>
    rw [hproposals]
    intro hlt
    exact h.fresh (Nat.lt_of_le_of_lt hcount hlt)

/-- **A VOTE**: while the poll is open, the tokens of the ballots whose locks have not
    run out are all still locked, so there are no more of them than tokens. -/
theorem Voted.polled {power : Nat} {p : Proposal} {used : Word → Bool} (h : Voted id u power t p w) (hnow : w.now ≤ t)
    (hw : Books supply w) (hpoll : Polled supply w id) :
    Polled supply { w with
      now := t
      gov := { w.gov with
        usedVoteNullifiers := used
        hasVoted := update w.gov.hasVoted id (update (w.gov.hasVoted id) u true)
        proposals := update w.gov.proposals id p }
      ballots := update w.ballots id (update (w.ballots id) u (castNow t (w.gov.locks u))) } id := by
  obtain ⟨hstarted, hwindow⟩ := hpoll.window h.known
  obtain ⟨hamount, hlive, hpower⟩ := votingPower_ok h.weight h.positive
  have hnone : w.ballots id u = noBallot := hpoll.first u h.first
  have hpid : p.id = (w.gov.proposals id).id := by rw [h.same]
  have hpstart : p.startTime = (w.gov.proposals id).startTime := by rw [h.same]
  have hpend : p.endTime = (w.gov.proposals id).endTime := by rw [h.same]
  have hcast : ∀ x, (update (w.ballots id) u (castNow t (w.gov.locks u)) x).amount ≠ 0 →
      Cast p t (w.gov.locks x) (update (w.ballots id) u (castNow t (w.gov.locks u)) x) := by
    intro x hx
    by_cases hxu : x = u
    · subst hxu
      rw [update_self]
      refine ⟨?_, ?_, Nat.le_refl _, hlive, hw.week x, ?_, fun _ => ⟨Nat.le_refl _, Nat.le_refl _⟩⟩
      · rw [hpstart]
        exact Nat.le_trans hstarted hnow
      · rw [hpend]
        exact h.opened
      · exact Nat.le_trans (hw.near x) (Nat.add_le_add_right hnow _)
    · rw [update_of_ne hxu] at hx ⊢
      have hlater : Cast (w.gov.proposals id) t (w.gov.locks x) (w.ballots id x) :=
        (hpoll.cast x hx).later hnow fun _ _ _ => ⟨Nat.le_refl _, Nat.le_refl _⟩
      obtain ⟨hafter, hbefore, hpast, hlive, hweek, hnear, hstays⟩ := hlater
      rw [← hpstart] at hafter
      rw [← hpend] at hbefore
      exact ⟨hafter, hbefore, hpast, hlive, hweek, hnear, hstays⟩
  -- what is counted of ballots whose locks still run is locked
  have hstill : ∀ f : Ballot → Nat, (∀ b, f b ≤ b.amount) →
    (∀ x, f (update (w.ballots id) u (castNow t (w.gov.locks u)) x) ≠ 0 →
      t < (update (w.ballots id) u (castNow t (w.gov.locks u)) x).unlockTime) →
      ∑ x, f (update (w.ballots id) u (castNow t (w.gov.locks u)) x) ≤ supply := by
    intro f hf hruns
    refine Nat.le_trans (sum_le_sum fun x _ => ?_) hw.locked_le
    by_cases hzero : f (update (w.ballots id) u (castNow t (w.gov.locks u)) x) = 0
    · rw [hzero]
      exact Nat.zero_le _
    · have hx : (update (w.ballots id) u (castNow t (w.gov.locks u)) x).amount ≠ 0 := by
        have := hf (update (w.ballots id) u (castNow t (w.gov.locks u)) x)
        omega
      exact Nat.le_trans (hf _) ((hcast x hx).stays (hruns x hzero)).1
  constructor
  case cast =>
    intro x
    show (update w.ballots id _ id x).amount ≠ 0 →
      Cast (update w.gov.proposals id p id) t (w.gov.locks x) (update w.ballots id _ id x)
    rw [update_self, update_self]
    exact hcast x
  case first =>
    intro x
    show update w.gov.hasVoted id _ id x = false → update w.ballots id _ id x = noBallot
    rw [update_self, update_self]
    intro hx
    by_cases hxu : x = u
    · rw [hxu, update_self] at hx
      exact absurd hx Bool.noConfusion
    · rw [update_of_ne hxu] at hx ⊢
      exact hpoll.first x hx
  case tally =>
    show (update w.gov.proposals id p id).forVotes + (update w.gov.proposals id p id).againstVotes
      = ∑ x, ballotWeight (update w.ballots id _ id x)
    have hsum := FiniteSum.sum_update (mem_univ u) (fun _ => ballotWeight) (w.ballots id) (castNow t (w.gov.locks u))
    rw [hnone, show ballotWeight noBallot = 0 by rw [ballotWeight]; decide, Nat.add_zero] at hsum
    rw [update_self, update_self, h.tally, hpoll.tally, hsum, hpower]
    rfl
  case early =>
    show ∑ x, amountBefore (boundary (update w.gov.proposals id p id).endTime) (update w.ballots id _ id x) ≤ supply
    rw [update_self, update_self]
    rcases Nat.lt_or_ge t (boundary p.endTime) with hlt | hge
    · refine hstill _ (fun b => ?_) fun x hx => ?_
      · rw [amountBefore]
        split
        · exact Nat.le_refl _
        · exact Nat.zero_le _
      · have hamount : (update (w.ballots id) u (castNow t (w.gov.locks u)) x).amount ≠ 0 := by
          intro hzero
          rw [amountBefore, hzero, ite_self] at hx
          exact hx rfl
        exact (hcast x hamount).unlock_after (by rw [hpend, hpstart, hwindow]) hlt
    · -- a ballot cast after the boundary is not counted
      refine Nat.le_trans (sum_le_sum fun x _ => ?_) hpoll.early
      rw [hpend] at hge ⊢
      by_cases hxu : x = u
      · have hnot : ¬ (castNow t (w.gov.locks u)).votedAt < boundary (w.gov.proposals id).endTime := Nat.not_lt.mpr hge
        rw [hxu, update_self, amountBefore, if_neg hnot]
        exact Nat.zero_le _
      · rw [update_of_ne hxu]
  case late =>
    show ∑ x, amountBeyond (update w.gov.proposals id p id).endTime (update w.ballots id _ id x) ≤ supply
    rw [update_self, update_self]
    refine hstill _ (fun b => ?_) fun x hx => ?_
    · rw [amountBeyond]
      split
      · exact Nat.le_refl _
      · exact Nat.zero_le _
    · rw [amountBeyond] at hx
      split at hx
      · rename_i hbeyond
        rw [hpend] at hbeyond
        exact Nat.lt_of_le_of_lt h.opened hbeyond
      · exact absurd rfl hx
  case window =>
    show (update w.gov.proposals id p id).id ≠ 0 → (update w.gov.proposals id p id).startTime ≤ t
      ∧ (update w.gov.proposals id p id).endTime = (update w.gov.proposals id p id).startTime + votingPeriod
    rw [update_self, hpstart, hpend]
    intro _
    exact ⟨Nat.le_trans hstarted hnow, hwindow⟩
  case unknown =>
    show (update w.gov.proposals id p id).id = 0 → _
    rw [update_self, hpid]
    intro hid
    exact absurd hid h.known
  case fresh =>
    show w.gov.proposalCount < id → (update w.gov.proposals id p id).id = 0
    intro hlt
    exact absurd (hpoll.fresh hlt) h.known

/-- Every transaction keeps every poll. -/
theorem Effect.polled (h : Effect t w w') (hnow : w.now ≤ t) (hw : Books supply w) (hpolls : ∀ id, Polled supply w id)
    (id : Nat) : Polled supply { w' with now := t } id := by
  cases h with
  | took u added lockCount l' h =>
    refine (hpolls id).same hnow rfl rfl rfl (Nat.le_refl _) fun x _ hx hamount hunlock => ?_
    show (w.gov.locks x).amount ≤ (update w.gov.locks u l' x).amount
      ∧ (w.gov.locks x).unlockTime ≤ (update w.gov.locks u l' x).unlockTime
    by_cases hxu : x = u
    · subst hxu
      rw [update_self, h.amount]
      exact ⟨Nat.le_add_right .., h.later (by omega)⟩
    · rw [update_of_ne hxu]
      exact ⟨Nat.le_refl _, Nat.le_refl _⟩
  | returned u hexpired htotal hheld =>
    refine (hpolls id).same hnow rfl rfl rfl (Nat.le_refl _) fun x hlive hx hamount hunlock => ?_
    show (w.gov.locks x).amount ≤ (update w.gov.locks u noLock x).amount
      ∧ (w.gov.locks x).unlockTime ≤ (update w.gov.locks u noLock x).unlockTime
    by_cases hxu : x = u
    · -- the lock that is gone had run out
      subst hxu
      exact absurd (Nat.lt_of_lt_of_le hlive (Nat.le_trans hunlock hexpired)) (Nat.lt_irrefl t)
    · rw [update_of_ne hxu]
      exact ⟨Nat.le_refl _, Nat.le_refl _⟩
  | proposed p hid hstart hend hfor hagainst =>
    by_cases hnew : id = w.gov.proposalCount + 1
    · have hpoll := hpolls id
      have hnone := hpoll.unknown (hpoll.fresh (by omega))
      have htally := hpoll.tally
      rw [sum_eq_zero fun u _ => by rw [hnone u, ballotWeight]; decide] at htally
      subst hnew
      refine polled_of_none hnone ?_ ?_ ?_
      · show (update w.gov.proposals _ p _).forVotes + (update w.gov.proposals _ p _).againstVotes = 0
        rw [update_self, hfor, hagainst, htally]
      · show (update w.gov.proposals _ p _).id ≠ 0 → (update w.gov.proposals _ p _).startTime ≤ t
          ∧ (update w.gov.proposals _ p _).endTime = (update w.gov.proposals _ p _).startTime + votingPeriod
        rw [update_self, hstart, hend]
        exact fun _ => ⟨Nat.le_refl _, rfl⟩
      · show w.gov.proposalCount + 1 < w.gov.proposalCount + 1 → _
        exact fun hlt => absurd hlt (Nat.lt_irrefl _)
    · exact (hpolls id).same hnow (update_of_ne hnew ..) rfl rfl (Nat.le_succ _)
        fun x _ _ _ _ => ⟨Nat.le_refl _, Nat.le_refl _⟩
  | voted id' u power p used h =>
    by_cases heq : id = id'
    · subst heq
      exact h.polled hnow hw (hpolls id)
    · exact (hpolls id).same hnow (update_of_ne heq ..) (update_of_ne heq ..) (update_of_ne heq ..) (Nat.le_refl _)
        fun x _ _ _ _ => ⟨Nat.le_refl _, Nat.le_refl _⟩
  | moved | donated =>
    exact (hpolls id).same hnow rfl rfl rfl (Nat.le_refl _) fun x _ _ _ _ => ⟨Nat.le_refl _, Nat.le_refl _⟩

/-! ## Runs -/

/-- A transaction no earlier than the last, with numbers that fit. -/
def Timely (w : World) (tx : Tx) : Prop := w.now ≤ tx.timestamp ∧ Fits tx

instance (w : World) (tx : Tx) : Decidable (Timely w tx) := instDecidableAnd

/-- The books and the polls together: what every run keeps. -/
structure Sound (supply : Nat) (w : World) : Prop where
  books : Books supply w
  polls : ∀ id, Polled supply w id

theorem step_sound (htx : Timely w tx) (hw : Sound supply w) : Sound supply (step keccak256 w tx) := by
  rw [step]
  split
  · rename_i w' hexec
    have heffect := exec_ok htx.2 hw.books.toLocked htx.1 hexec
    exact ⟨heffect.books htx.1 hw.books, heffect.polled htx.1 hw.books hw.polls⟩
  · -- only the clock moves
    have hnear : ∀ u, (w.gov.locks u).unlockTime ≤ tx.timestamp + maxLock := fun u =>
      Nat.le_trans (hw.books.near u) (Nat.add_le_add_right htx.1 _)
    refine ⟨⟨⟨hw.books.week, hnear⟩, hw.books.supply, hw.books.held, hw.books.total, hw.books.owed⟩, fun id => ?_⟩
    exact (hw.polls id).same htx.1 rfl rfl rfl (Nat.le_refl _) fun x _ _ _ _ => ⟨Nat.le_refl _, Nat.le_refl _⟩

theorem start_sound (balance : Address → Nat) : Sound (∑ u, balance u) (start balance) := by
  refine ⟨⟨⟨fun _ => Nat.dvd_zero _, fun _ => Nat.zero_le _⟩, ?_, rfl, ?_, fun _ => rfl⟩, fun id => ?_⟩
  · show ∑ u, balance u + 0 = ∑ u, balance u
    rw [Nat.add_zero]
  · show 0 = ∑ _u : Address, 0
    rw [sum_const_zero]
  · exact polled_of_none (fun _ => rfl) rfl (fun h => absurd rfl h) fun _ => rfl

/-- **THE POLL BOUND**: the votes on a proposal are at most the longest lock of every
    token. -/
theorem Polled.votes_le (h : Polled supply w id) :
    (w.gov.proposals id).forVotes + (w.gov.proposals id).againstVotes ≤ maxMultiplier * supply := by
  rw [h.tally]
  by_cases hid : (w.gov.proposals id).id = 0
  · rw [sum_eq_zero fun u _ => by rw [h.unknown hid u, ballotWeight]; decide]
    exact Nat.zero_le _
  obtain ⟨-, hwindow⟩ := h.window hid
  have hnone : ∀ {b : Ballot}, b.amount = 0 → ballotWeight b = 0 := by
    intro b hb
    rw [ballotWeight, hb, Nat.zero_mul, Nat.zero_mul, Nat.zero_div]
  rcases Nat.lt_or_ge (w.gov.proposals id).startTime (boundary (w.gov.proposals id).endTime) with hstart | hstart
  · have hpos : 0 < maxLock := by decide
    refine Nat.le_of_mul_le_mul_right ?_ hpos
    calc (∑ u, ballotWeight (w.ballots id u)) * maxLock
        = ∑ u, ballotWeight (w.ballots id u) * maxLock := sum_mul ..
      _ ≤ ∑ u, maxMultiplier * (votingPeriod * amountBefore (boundary (w.gov.proposals id).endTime) (w.ballots id u)
            + (maxLock - votingPeriod) * amountBeyond (w.gov.proposals id).endTime (w.ballots id u)) := by
          refine sum_le_sum fun u _ => ?_
          by_cases hamount : (w.ballots id u).amount = 0
          · rw [hnone hamount, Nat.zero_mul]
            exact Nat.zero_le _
          · exact (h.cast u hamount).weight_le hwindow hstart
      _ = maxMultiplier * (votingPeriod * ∑ u, amountBefore (boundary (w.gov.proposals id).endTime) (w.ballots id u)
            + (maxLock - votingPeriod) * ∑ u, amountBeyond (w.gov.proposals id).endTime (w.ballots id u)) := by
          rw [← mul_sum, sum_add_distrib, ← mul_sum, ← mul_sum]
      _ ≤ maxMultiplier * (votingPeriod * supply + (maxLock - votingPeriod) * supply) :=
          Nat.mul_le_mul_left _ (Nat.add_le_add (Nat.mul_le_mul_left _ h.early) (Nat.mul_le_mul_left _ h.late))
      _ = maxMultiplier * supply * maxLock := by
          rw [← Nat.add_mul, show votingPeriod + (maxLock - votingPeriod) = maxLock from rfl, Nat.mul_comm maxLock,
            Nat.mul_assoc]
  · calc ∑ u, ballotWeight (w.ballots id u)
        ≤ ∑ u, maxMultiplier * amountBeyond (w.gov.proposals id).endTime (w.ballots id u) := by
          refine sum_le_sum fun u _ => ?_
          by_cases hamount : (w.ballots id u).amount = 0
          · rw [hnone hamount]
            exact Nat.zero_le _
          · exact (h.cast u hamount).weight_le_beyond hstart
      _ = maxMultiplier * ∑ u, amountBeyond (w.gov.proposals id).endTime (w.ballots id u) := (mul_sum ..).symm
      _ ≤ maxMultiplier * supply := Nat.mul_le_mul_left _ h.late

/-- Every ballot was cast before the boundary, or with a lock that lasts beyond the vote. -/
theorem Polled.tokens_le (h : Polled supply w id) : ∑ u, (w.ballots id u).amount ≤ 2 * supply := by
  have hsplit : ∀ u, (w.ballots id u).amount ≤ amountBefore (boundary (w.gov.proposals id).endTime) (w.ballots id u)
      + amountBeyond (w.gov.proposals id).endTime (w.ballots id u) := by
    intro u
    by_cases hamount : (w.ballots id u).amount = 0
    · rw [hamount]
      exact Nat.zero_le _
    have hcast := h.cast u hamount
    rw [amountBefore, amountBeyond]
    rcases Nat.lt_or_ge (w.ballots id u).votedAt (boundary (w.gov.proposals id).endTime) with hbefore | hafter
    · rw [if_pos hbefore]
      exact Nat.le_add_right ..
    · rw [if_pos (beyond_of_boundary_lt hcast.week (Nat.lt_of_le_of_lt hafter hcast.live))]
      exact Nat.le_add_left ..
  calc ∑ u, (w.ballots id u).amount
      ≤ ∑ u, (amountBefore (boundary (w.gov.proposals id).endTime) (w.ballots id u)
          + amountBeyond (w.gov.proposals id).endTime (w.ballots id u)) := sum_le_sum fun u _ => hsplit u
    _ = ∑ u, amountBefore (boundary (w.gov.proposals id).endTime) (w.ballots id u)
          + ∑ u, amountBeyond (w.gov.proposals id).endTime (w.ballots id u) := sum_add_distrib
    _ ≤ supply + supply := Nat.add_le_add h.early h.late
    _ = 2 * supply := (Nat.two_mul supply).symm

theorem Polled.tokens_once (h : Polled supply w id)
    (hbeyond : ∀ u, (w.ballots id u).amount ≠ 0 → (w.gov.proposals id).endTime < (w.ballots id u).unlockTime) :
    ∑ u, (w.ballots id u).amount ≤ supply := by
  refine Nat.le_trans (sum_le_sum fun u _ => ?_) h.late
  rw [amountBeyond]
  split
  · exact Nat.le_refl _
  · rename_i hnot
    by_contra hlt
    exact hnot (hbeyond u (by omega))

/-- A lock that has run out is paid back. -/
theorem Books.unlock_pays (h : Books supply w) (hlocked : (w.gov.locks u).amount ≠ 0)
    (hexpired : (w.gov.locks u).unlockTime ≤ t) :
    ∃ w', unlock u t w = .ok w' ∧ w'.balance u = w.balance u + w.putIn u ∧ w'.putIn u = 0
      ∧ (w'.gov.locks u).amount = 0 := by
  have htotal : (w.gov.locks u).amount ≤ w.gov.totalLocked := by
    rw [h.total]
    exact single_le_sum (f := fun u => (w.gov.locks u).amount) (fun _ _ => Nat.zero_le _) (mem_univ u)
  have hheld : (w.gov.locks u).amount ≤ w.held := by
    rw [h.held]
    exact Nat.le_trans htotal (Nat.le_add_right ..)
  have hrun : unlock u t w = pushTokens u (w.gov.locks u).amount
      (w.put { setLock u noLock w.gov with totalLocked := w.gov.totalLocked - (w.gov.locks u).amount }) := by
    rw [unlock, guarded_of_not hlocked, guarded_of_not (Nat.not_lt.mpr hexpired), subU_of_le _ htotal, ok_bind]
  refine ⟨_, hrun.trans (congrArg (· >>= _) (revertIf_of_not _ (Nat.not_lt.mpr hheld))), ?_, update_self .., ?_⟩
  · show update w.balance u (w.balance u + (w.gov.locks u).amount) u = _
    rw [update_self, h.owed]
  · show (update w.gov.locks u noLock u).amount = 0
    rw [update_self]
    rfl

/-! ## The votes of a run -/

/-- What holds of the locks and the votes in every state. -/
structure Counted (supply : Nat) (w : World) : Prop where
  total : w.gov.totalLocked = ∑ u, (w.gov.locks u).amount
  held : w.held = w.gov.totalLocked + w.donated
  owed : ∀ u, (w.gov.locks u).amount = w.putIn u
  unlocks : ∀ u t, (w.gov.locks u).amount ≠ 0 → (w.gov.locks u).unlockTime ≤ t →
    ∃ w', unlock u t w = .ok w' ∧ w'.balance u = w.balance u + w.putIn u ∧ w'.putIn u = 0
      ∧ (w'.gov.locks u).amount = 0
  votes : ∀ id, (w.gov.proposals id).forVotes + (w.gov.proposals id).againstVotes ≤ maxMultiplier * supply
  tokens : ∀ id, ∑ u, (w.ballots id u).amount ≤ 2 * supply
  once : ∀ id, (∀ u, (w.ballots id u).amount ≠ 0 → (w.gov.proposals id).endTime < (w.ballots id u).unlockTime) →
    ∑ u, (w.ballots id u).amount ≤ supply

/-- **VOTES ARE BOUNDED**: whatever is locked, voted, unlocked and moved, the locks add
    up and are paid back, and the votes on a proposal stay within the longest lock of the
    whole supply.  No token is voted more than twice on one proposal, and none twice with
    locks that last beyond the vote. -/
theorem votes_counted (balance : Address → Nat) (txs : List Tx)
    (htxs : Trace.Along (step keccak256) Timely (start balance) txs) :
    Counted (∑ u, balance u) (run keccak256 (start balance) txs) := by
  have hw : Sound (∑ u, balance u) (run keccak256 (start balance) txs) :=
    htxs.keeps _ (start_sound balance) fun w tx htx hw => step_sound htx hw
  constructor
  case total => exact hw.books.total
  case held => exact hw.books.held
  case owed => exact hw.books.owed
  case unlocks =>
    intro u t hlocked hexpired
    exact hw.books.unlock_pays hlocked hexpired
  case votes =>
    intro id
    exact (hw.polls id).votes_le
  case tokens =>
    intro id
    exact (hw.polls id).tokens_le
  case once =>
    intro id hbeyond
    exact (hw.polls id).tokens_once hbeyond

/-! ## A token that votes twice -/

def alice : Address := 0xA11CE

def bob : Address := 0xB0B

/-- Alice has all the tokens. -/
def sampleBalance (amount : Nat) (u : Address) : Nat := if u = alice then amount else 0

/-- Keccak-256 on the two strings the run hashes; zero elsewhere. -/
def sampleKeccak (message : List UInt8) : Word :=
  (([(bigEndian 32 1 ++ addressBytes alice ++ bigEndian 32 5,
      0xbbd6354d30fee8076d1d24a5658ed0e4a386eebd134a2f9507a6aef82ba6c7c8),
    (bigEndian 32 1 ++ addressBytes bob ++ bigEndian 32 2991,
      0x66ada7898b382eb69e0026d5eaa24de409a201d2294152e071f3f1199d887a26)] : List
        (List UInt8 × Word)).lookup message).getD 0

def sampleTx (sender : Address) (timestamp : Nat) (call : Call) : Tx where
  sender := sender
  timestamp := timestamp
  call := call
  approved := true

/-- Alice locks for 26 weeks, proposes and votes two days before the lock ends, and moves
    the tokens to Bob, who locks them for 156 weeks and votes on the same proposal. -/
def movedTxs : List Tx := [
  sampleTx alice 1693440000 (.lock 1000 1709164800),
  sampleTx alice 1708992000 (.createProposal .treasurySpend 0 "spend" []),
  sampleTx alice 1708992000 (.vote 1 true),
  sampleTx alice 1709164800 .unlock,
  sampleTx alice 1709164800 (.transfer bob 1000),
  sampleTx bob 1709164800 (.lock 1000 1803513600),
  sampleTx bob 1709164800 (.vote 1 true)]

def sampleRun (amount : Nat) (txs : List Tx) : World := run sampleKeccak (start (sampleBalance amount)) txs

theorem votes_counted_moved : Counted (∑ u, sampleBalance 1000 u) (sampleRun 1000 movedTxs) := by
  have htxs : Trace.Along (step sampleKeccak) Timely (start (sampleBalance 1000)) movedTxs := by decide +kernel
  exact votes_counted (sampleBalance 1000) movedTxs htxs

/-- The locks add up, what was put in can be unlocked, and no token votes twice. -/
structure CountedOnce (supply : Nat) (w : World) : Prop where
  total : w.gov.totalLocked = ∑ u, (w.gov.locks u).amount
  owed : ∀ u, (w.gov.locks u).amount = w.putIn u
  votes : ∀ id, (w.gov.proposals id).forVotes + (w.gov.proposals id).againstVotes ≤ maxMultiplier * supply
  tokens : ∀ id, ∑ u, (w.ballots id u).amount ≤ supply

theorem sampleBalance_sum (amount : Nat) : ∑ u, sampleBalance amount u = amount := by
  show (∑ u, if u = alice then amount else 0) = amount
  rw [sum_ite_eq', if_pos (mem_univ alice)]

/-- All tokens vote twice on one proposal; and a lock of one more than its record holds
    is a lock of one. -/
theorem counted_twice : ¬ CountedOnce (∑ u, sampleBalance 1000 u) (sampleRun 1000 movedTxs)
    ∧ ¬ CountedOnce (∑ u, sampleBalance (2 ^ 128 + 1) u)
      (sampleRun (2 ^ 128 + 1) [sampleTx alice 1693440000 (.lock (2 ^ 128 + 1) 1709164800)]) := by
  constructor
  · intro h
    have hpair : ∑ u ∈ {alice, bob}, ((sampleRun 1000 movedTxs).ballots 1 u).amount
        ≤ ∑ u, ((sampleRun 1000 movedTxs).ballots 1 u).amount :=
      sum_le_sum_of_subset (subset_univ _)
    have hvoted : ((sampleRun 1000 movedTxs).ballots 1 alice).amount = 1000
        ∧ ((sampleRun 1000 movedTxs).ballots 1 bob).amount = 1000 := by
      decide +kernel
    have hne : alice ≠ bob := by decide
    have honce := h.tokens 1
    rw [sum_pair hne, hvoted.1, hvoted.2] at hpair
    rw [sampleBalance_sum] at honce
    omega
  · intro h
    have howed := h.owed alice
    revert howed
    decide +kernel

end VeXFVotes
