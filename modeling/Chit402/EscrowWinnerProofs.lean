import Chit402.EscrowCommitsProofs

/-! # Who wins the bounty of an epoch

    Every reveal of an epoch names an address to pay, and carries the number
    of the commit it used up.  The contract keeps the best of them as they
    land; whatever the order, a finalized bounty names the reveal with the
    smallest number among those that landed within the contest window.  It
    is credited at most once, and to that address. -/

namespace EscrowWinner

open ExceptFlow Solidity EscrowState EscrowContract EscrowStep EscrowRun EscrowCommits Function

variable {C : Contract} {m : Msg}

/-! ## Reveals and credits of a run -/

structure Landed where
  epoch : UInt32
  seq : Nat
  payTo : Address
  landedAt : Nat

def goesThrough (C : Contract) (w : World) (m : Msg) (c : Call) : Bool :=
  m.sender ≠ C.self && (exec C m c w).toOption.isSome

/-- The reveal a transaction lands, with the number of the commit it uses up. -/
def landedBy (C : Contract) (w : World) (tx : Tx) : Option Landed :=
  match tx.action with
  | .call c =>
    if goesThrough C w tx.msg c then
      (revealOf C tx.msg.sender c).map fun r => {
        epoch := r.epoch
        seq := (w.escrow.commits r.commitHash).seq
        payTo := r.payTo
        landedAt := tx.msg.timestamp }
    else none
  | .outside _ _ _ => none

/-- The reveals of a run, in the order they landed. -/
def landed (C : Contract) : World → List Tx → List Landed
  | _, [] => []
  | w, tx :: txs => (landedBy C w tx).toList ++ landed C (EscrowStep.step C w tx) txs

/-- What a transaction adds to an address's credits as the bounty of an epoch. -/
def creditedBy (C : Contract) (epoch : UInt32) (payee : Address) (w : World) (tx : Tx) : Nat :=
  match tx.action with
  | .call (.finalizeBounty e) =>
    if e = epoch then (EscrowStep.step C w tx).escrow.credits payee - w.escrow.credits payee else 0
  | _ => 0

/-- The same over a run. -/
def credited (C : Contract) (epoch : UInt32) (payee : Address) : World → List Tx → Nat
  | _, [] => 0
  | w, tx :: txs => creditedBy C epoch payee w tx + credited C epoch payee (EscrowStep.step C w tx) txs

/-- The reveal is about the epoch and landed within its contest window. -/
def InContest (epoch : UInt32) (b : EpochBounty) (r : Landed) : Prop :=
  r.epoch = epoch ∧ r.landedAt < b.firstRevealAt + contestWindow

theorem landed_append (w : World) (txs later : List Tx) :
    landed C w (txs ++ later) = landed C w txs ++ landed C (run C w txs) later := by
  induction txs generalizing w with
  | nil => rfl
  | cons tx txs ih =>
    rw [List.cons_append, landed, landed, ih, run_cons, List.append_assoc]

theorem landed_concat (w : World) (txs : List Tx) (tx : Tx) :
    landed C w (txs ++ [tx]) = landed C w txs ++ (landedBy C (run C w txs) tx).toList := by
  rw [landed_append, landed, landed, List.append_nil]

theorem credited_concat (epoch : UInt32) (payee : Address) (w : World) (txs : List Tx) (tx : Tx) :
    credited C epoch payee w (txs ++ [tx])
      = credited C epoch payee w txs + creditedBy C epoch payee (run C w txs) tx := by
  induction txs generalizing w with
  | nil => rw [List.nil_append, credited, credited, credited, Nat.zero_add, Nat.add_zero, run_nil]
  | cons tx' txs ih => rw [List.cons_append, credited, ih, credited, run_cons, Nat.add_assoc]

/-! ## One transaction -/

variable {payee : Address} {total total' : Address → Nat} {c : Call} {b b' : EpochBounty} {slot : Fin maxOpenCommits}
  {r : Landed} {reveals : List Landed} {txs : List Tx} {now : Nat} {s s' : State} {tx : Tx} {epoch : UInt32}
  {w w' : World}

theorem Executes.goesThrough (h : Executes C w tx c w') : EscrowWinner.goesThrough C w tx.msg c = true := by
  obtain ⟨-, hself, hexec⟩ := h
  rw [EscrowWinner.goesThrough, hexec]
  simpa [Except.toOption] using hself

/-- A transaction whose call goes through, or one that lands nothing and leaves the escrow. -/
theorem tx_cases (C : Contract) (w : World) (tx : Tx) : (∃ c, Executes C w tx c (EscrowStep.step C w tx))
      ∨ ((EscrowStep.step C w tx).escrow = w.escrow ∧ landedBy C w tx = none) := by
  cases haction : tx.action with
  | outside balances allowance gift =>
    right
    rw [EscrowStep.step, landedBy, haction]
    exact ⟨rfl, rfl⟩
  | call c =>
    by_cases hself : tx.msg.sender = C.self
    · right
      rw [EscrowStep.step, landedBy, haction]
      simp [hself, goesThrough]
    · cases hexec : exec C tx.msg c w with
      | error e =>
        right
        rw [EscrowStep.step, landedBy, haction]
        simp [hself, hexec, goesThrough, Except.toOption]
      | ok w' =>
        left
        have h : Executes C w tx c w' := ⟨haction, hself, hexec⟩
        rw [h.step]
        exact ⟨c, h⟩

theorem landedBy_of_executes (h : Executes C w tx c w') : landedBy C w tx = (revealOf C tx.msg.sender c).map fun r => {
      epoch := r.epoch
      seq := (w.escrow.commits r.commitHash).seq
      payTo := r.payTo
      landedAt := tx.msg.timestamp } := by
  rw [landedBy, h.1]
  exact if_pos (Executes.goesThrough h)

/-! ## The numbers of commits -/

/-- **Numbers**: each commit and each reveal has its own, none beyond the counter. -/
structure Numbered (s : State) (reveals : List Landed) : Prop where
  bounded : ∀ h, (s.commits h).committer ≠ 0 → (s.commits h).seq ≤ s.commitSeq
  apart : ∀ h h', (s.commits h).committer ≠ 0 → (s.commits h').committer ≠ 0 →
    (s.commits h).seq = (s.commits h').seq → h = h'
  used : ∀ r ∈ reveals, r.seq ≤ s.commitSeq
  gone : ∀ r ∈ reveals, ∀ h, (s.commits h).committer ≠ 0 → (s.commits h).seq ≠ r.seq
  nodup : (reveals.map (·.seq)).Nodup

theorem numbered_initial : Numbered initial [] where
  bounded := fun _ h => absurd rfl h
  apart := fun _ _ h => absurd rfl h
  used := fun _ h => absurd h List.not_mem_nil
  gone := fun _ h => absurd h List.not_mem_nil
  nodup := List.nodup_nil

/-- A record after a commit is the new one, or one from before. -/
theorem committed_record {c : Word} (h : Committed m c slot s s') {hash : Word}
    (hpresent : (s'.commits hash).committer ≠ 0) : (hash = c ∧ (s'.commits hash).seq = s.commitSeq + 1)
      ∨ (hash ≠ c ∧ s'.commits hash = s.commits hash) := by
  by_cases hc : hash = c
  · left
    refine ⟨hc, ?_⟩
    rw [h.commits, hc, update_self]
  · right
    refine ⟨hc, ?_⟩
    rw [h.commits, update_of_ne hc] at hpresent ⊢
    split at hpresent
    · rename_i hprev
      rw [if_pos hprev]
      by_cases heq : hash = s.commitSlots m.sender slot
      · rw [heq, update_self] at hpresent
        exact absurd rfl hpresent
      · exact update_of_ne heq _ _
    · rename_i hprev
      rw [if_neg hprev]

theorem Numbered.committed {c : Word} (h : Numbered s reveals) (hs : Committed m c slot s s') :
    Numbered s' reveals := by
  constructor
  case bounded =>
    intro hash hpresent
    rw [hs.seq]
    rcases committed_record hs hpresent with ⟨-, hseq⟩ | ⟨-, hsame⟩
    · exact Nat.le_of_eq hseq
    · rw [hsame] at hpresent ⊢
      exact Nat.le_succ_of_le (h.bounded hash hpresent)
  case apart =>
    intro hash hash' hpresent hpresent' heq
    rcases committed_record hs hpresent with ⟨hc, hseq⟩ | ⟨-, hsame⟩
    · rcases committed_record hs hpresent' with ⟨hc', -⟩ | ⟨-, hsame'⟩
      · rw [hc, hc']
      · rw [hsame'] at hpresent' heq
        have hle := h.bounded hash' hpresent'
        omega
    · rcases committed_record hs hpresent' with ⟨-, hseq'⟩ | ⟨-, hsame'⟩
      · rw [hsame] at hpresent heq
        have hle := h.bounded hash hpresent
        omega
      · rw [hsame] at hpresent heq
        rw [hsame'] at hpresent' heq
        exact h.apart hash hash' hpresent hpresent' heq
  case used =>
    intro r hr
    rw [hs.seq]
    exact Nat.le_succ_of_le (h.used r hr)
  case gone =>
    intro r hr hash hpresent
    rcases committed_record hs hpresent with ⟨-, hseq⟩ | ⟨-, hsame⟩
    · have hle := h.used r hr
      omega
    · rw [hsame] at hpresent ⊢
      exact h.gone r hr hash hpresent
  case nodup => exact h.nodup

theorem Numbered.revealed {r : Reveal} {s s' : State} {reveals : List Landed} (h : Numbered s reveals)
    (hs : Accepted C m r s s') :
    Numbered s' (reveals ++ [⟨r.epoch, (s.commits r.commitHash).seq, r.payTo, m.timestamp⟩]) := by
  have hpresent : (s.commits r.commitHash).committer ≠ 0 := hs.live.1
  have hseq : s'.commitSeq = s.commitSeq := hs.seq
  have hkept : ∀ hash, (s'.commits hash).committer ≠ 0 →
      hash ≠ r.commitHash ∧ s'.commits hash = s.commits hash := by
    intro hash hh
    rw [hs.commits] at hh ⊢
    by_cases hc : hash = r.commitHash
    · rw [hc, update_self] at hh
      exact absurd rfl hh
    · exact ⟨hc, update_of_ne hc _ _⟩
  constructor
  case bounded =>
    intro hash hh
    obtain ⟨-, hsame⟩ := hkept hash hh
    rw [hsame] at hh ⊢
    rw [hseq]
    exact h.bounded hash hh
  case apart =>
    intro hash hash' hh hh' heq
    obtain ⟨-, hsame⟩ := hkept hash hh
    obtain ⟨-, hsame'⟩ := hkept hash' hh'
    rw [hsame] at hh heq
    rw [hsame'] at hh' heq
    exact h.apart hash hash' hh hh' heq
  case used =>
    intro r' hr'
    rw [hseq]
    rcases List.mem_append.mp hr' with hr' | hr'
    · exact h.used r' hr'
    · rw [List.mem_singleton.mp hr']
      exact h.bounded _ hpresent
  case gone =>
    intro r' hr' hash hh
    obtain ⟨hne, hsame⟩ := hkept hash hh
    rw [hsame] at hh ⊢
    rcases List.mem_append.mp hr' with hr' | hr'
    · exact h.gone r' hr' hash hh
    · rw [List.mem_singleton.mp hr']
      exact fun heq => hne (h.apart hash _ hh hpresent heq)
  case nodup =>
    rw [List.map_append, List.map_singleton, List.nodup_append]
    refine ⟨h.nodup, List.nodup_singleton _, ?_⟩
    intro seq hseq' seq' hnew heq
    obtain ⟨r', hr', rfl⟩ := List.mem_map.mp hseq'
    rw [List.mem_singleton.mp hnew] at heq
    exact h.gone r' hr' r.commitHash hpresent heq.symm

theorem Numbered.same (h : Numbered s reveals) (hs : SameCommits s s') : Numbered s' reveals where
  bounded := by
    rw [hs.commits, hs.seq]
    exact h.bounded
  apart := by
    rw [hs.commits]
    exact h.apart
  used := by
    rw [hs.seq]
    exact h.used
  gone := by
    rw [hs.commits]
    exact h.gone
  nodup := h.nodup

theorem step_numbered (h : Numbered w.escrow reveals) :
    Numbered (EscrowStep.step C w tx).escrow (reveals ++ (landedBy C w tx).toList) := by
  rcases tx_cases C w tx with ⟨call, hexecutes⟩ | ⟨hsame, hnone⟩
  · have heffect := exec_commits hexecutes.2.2
    rw [landedBy_of_executes hexecutes]
    generalize (EscrowStep.step C w tx).escrow = s' at heffect ⊢
    cases heffect with
    | committed hcommit =>
      rw [show revealOf C tx.msg.sender (.commit _) = none from rfl, Option.map_none, Option.toList_none,
        List.append_nil]
      exact h.committed hcommit
    | revealed hr hreveal =>
      rw [hr]
      exact h.revealed hreveal
    | same hr hrest =>
      rw [hr, Option.map_none, Option.toList_none, List.append_nil]
      exact h.same hrest
  · rw [hsame, hnone, Option.toList_none, List.append_nil]
    exact h

/-! ## What a call does to the bounties -/

theorem noteBounty_bounties {seq : Nat} {payTo : Address} (h : s'.bounties = s.bounties) :
    (noteBounty m epoch seq payTo s').bounties = (noteBounty m epoch seq payTo s).bounties := by
  rw [noteBounty, noteBounty, h]
  split
  · exact h
  · split
    · rfl
    · split
      · rfl
      · exact h

theorem noteBounty_of_ne {other : UInt32} (seq : Nat) (payTo : Address) (s : State) (hne : other ≠ epoch) :
    (noteBounty m epoch seq payTo s).bounties other = s.bounties other := by
  rw [noteBounty]
  split
  · rfl
  · split
    · exact update_of_ne hne _ _
    · split
      · exact update_of_ne hne _ _
      · rfl

theorem noteBounty_final (seq : Nat) (payTo : Address) (hfinal : (s.bounties epoch).finalized = true) :
    noteBounty m epoch seq payTo s = s := by
  rw [noteBounty]
  exact if_pos hfinal

theorem openOrJoin_bounties {incidentId : Nat} (h : OpenedOrJoined C m epoch s incidentId s') :
    s'.bounties = s.bounties ∧ s'.credits = s.credits := by
  cases h with
  | opened => exact ⟨rfl, rfl⟩
  | joined => exact ⟨rfl, rfl⟩

theorem Accepted.bounties {r : Reveal} (h : Accepted C m r s s') :
    s'.bounties = (noteBounty m r.epoch (s.commits r.commitHash).seq r.payTo s).bounties ∧ s'.credits = s.credits := by
  obtain ⟨key, evidenceType, lo, hi, hrecord⟩ := h.recorded
  obtain ⟨incidentId, s1, hopen, rfl⟩ := record_ok hrecord
  obtain ⟨hbounties, hcredits⟩ := openOrJoin_bounties hopen
  refine ⟨noteBounty_bounties hbounties, ?_⟩
  rw [(noteBounty_frame ..).choose_spec.choose_spec]
  exact hcredits

/-- What a finalization found and wrote. -/
structure Finalized (m : Msg) (epoch : UInt32) (s s' : State) : Prop where
  revealed : (s.bounties epoch).firstRevealAt ≠ 0
  pending : (s.bounties epoch).finalized = false
  lapsed : (s.bounties epoch).firstRevealAt + contestWindow ≤ m.timestamp
  bounties : s'.bounties = update s.bounties epoch
    { s.bounties epoch with finalized := true, paid := bountyPay s }
  credits : s'.credits = update s.credits (s.bounties epoch).bestPayTo
    (s.credits (s.bounties epoch).bestPayTo + bountyPay s)

theorem finalizeBounty_spec (h : finalizeBounty m epoch s = .ok s') : Finalized m epoch s s' := by
  have hover : (s.bounties epoch).firstRevealAt + contestWindow ≤ m.timestamp := by
    rw [finalizeBounty, guarded_iff, guarded_iff] at h
    obtain ⟨-, hopen, -⟩ := h
    exact Nat.le_of_not_lt hopen
  obtain ⟨hfirst, hpending, -, pay, hpay, rfl⟩ := finalizeBounty_ok h
  exact ⟨hfirst, hpending, hover, by rw [hpay], by rw [hpay]⟩

/-- **WHAT A CALL DOES TO THE BOUNTIES**: a reveal notes one, a finalization closes and credits
    one, a claim empties the caller's credits, and every other call leaves both. -/
inductive BountyEffect (C : Contract) (m : Msg) : Call → State → State → Prop where
  | revealed {call : Call} {r : Reveal} {s s' : State} (hr : revealOf C m.sender call = some r)
      (h : Accepted C m r s s') : BountyEffect C m call s s'
  | finalized {epoch : UInt32} {s s' : State} (h : Finalized m epoch s s') :
      BountyEffect C m (.finalizeBounty epoch) s s'
  | claimed {s s' : State} (hbounties : s'.bounties = s.bounties)
      (hcredits : s'.credits = update s.credits m.sender 0) : BountyEffect C m .claim s s'
  | same {call : Call} {s s' : State} (hr : revealOf C m.sender call = none)
      (hcall : ∀ epoch, call ≠ .finalizeBounty epoch) (hbounties : s'.bounties = s.bounties)
      (hcredits : s'.credits = s.credits) : BountyEffect C m call s s'

theorem exec_bounties {call : Call} (hexec : exec C m call w = .ok w') : BountyEffect C m call w.escrow w'.escrow := by
  have h := exec_effect hexec
  generalize w'.escrow = s' at h ⊢
  cases h with
  | owner hcall _ _ => exact .same (revealOf_owner hcall) (fun _ heq => nomatch heq ▸ hcall) rfl rfl
  | commit hcall =>
    obtain ⟨-, -, commits, slots, seq, rfl⟩ := commit_ok hcall
    exact .same rfl (fun _ => nofun) rfl rfl
  | revealA hcall => exact .revealed rfl (revealA_accepted hcall rfl)
  | revealB hcall => exact .revealed rfl (revealB_accepted hcall rfl)
  | finalizeBounty hcall => exact .finalized (finalizeBounty_spec hcall)
  | registerRefund hcall =>
    obtain ⟨-, -, -, -, -, rfl⟩ := registerRefund_ok hcall
    exact .same rfl (fun _ => nofun) rfl rfl
  | settle hcall =>
    obtain ⟨-, -, -, -, -, -, rfl⟩ := settle_ok hcall
    exact .same rfl (fun _ => nofun) rfl rfl
  | claimRefund => exact .same rfl (fun _ => nofun) rfl rfl
  | claim => exact .claimed rfl rfl

/-! ## The best reveal so far -/

/-- **THE RACE** of an epoch: no reveal yet, or the best one of its contest. -/
structure Race (now : Nat) (reveals : List Landed) (epoch : UInt32) (b : EpochBounty) : Prop where
  none : b.firstRevealAt = 0 → b.finalized = false ∧ ∀ r ∈ reveals, r.epoch ≠ epoch
  best : b.firstRevealAt ≠ 0 → ∃ r ∈ reveals, InContest epoch b r ∧ r.seq = b.bestSeq ∧ r.payTo = b.bestPayTo
    ∧ ∀ r' ∈ reveals, InContest epoch b r' → b.bestSeq ≤ r'.seq
  lapsed : b.finalized = true → b.firstRevealAt + contestWindow ≤ now

theorem race_initial (epoch : UInt32) : Race 0 [] epoch noBounty where
  none := fun _ => ⟨rfl, fun _ h => absurd h List.not_mem_nil⟩
  best := fun h => absurd rfl h
  lapsed := fun h => nomatch h

theorem Race.wait {later : Nat} (h : Race now reveals epoch b) (hle : now ≤ later) : Race later reveals epoch b :=
  { h with lapsed := fun hfinal => Nat.le_trans (h.lapsed hfinal) hle }

/-- A reveal outside the contest changes nothing. -/
theorem Race.outside (h : Race now reveals epoch b) (hfirst : r.epoch = epoch → b.firstRevealAt ≠ 0)
    (hbetter : InContest epoch b r → b.bestSeq ≤ r.seq) : Race now (reveals ++ [r]) epoch b := by
  constructor
  case none =>
    intro h0
    refine ⟨(h.none h0).1, fun r' hr' => ?_⟩
    rcases List.mem_append.mp hr' with hr' | hr'
    · exact (h.none h0).2 r' hr'
    · rw [List.mem_singleton.mp hr']
      exact fun hepoch => hfirst hepoch h0
  case best =>
    intro h0
    obtain ⟨rb, hmem, hcontest, hseq, hpay, hleast⟩ := h.best h0
    refine ⟨rb, List.mem_append_left _ hmem, hcontest, hseq, hpay, fun r' hr' hin => ?_⟩
    rcases List.mem_append.mp hr' with hr' | hr'
    · exact hleast r' hr' hin
    · obtain rfl := List.mem_singleton.mp hr'
      exact hbetter hin
  case lapsed => exact h.lapsed

/-- **STEP OF THE RACE**: a reveal lands, and the bounty of its epoch is noted. -/
theorem Race.landed (hlate : minDelay ≤ m.timestamp) (hnow : r.landedAt = m.timestamp)
    (h : Race m.timestamp reveals epoch (s.bounties epoch)) :
    Race m.timestamp (reveals ++ [r]) epoch ((noteBounty m r.epoch r.seq r.payTo s).bounties epoch) := by
  by_cases hepoch : r.epoch = epoch
  · subst hepoch
    rw [noteBounty]
    by_cases hfinal : (s.bounties r.epoch).finalized = true
    · -- a closed bounty, whose contest is over
      rw [if_pos hfinal]
      have hover := h.lapsed hfinal
      refine h.outside (fun _ h0 => ?_) fun hin => ?_
      · rw [(h.none h0).1] at hfinal
        cases hfinal
      · have hlt := hin.2
        omega
    rw [if_neg hfinal]
    by_cases h0 : (s.bounties r.epoch).firstRevealAt = 0
    · -- the first reveal of its epoch
      rw [if_pos h0]
      have hclock : m.timestamp % 2 ^ 64 = m.timestamp :=
        Nat.mod_eq_of_lt (Nat.lt_trans m.inRange (by decide))
      simp only [update_self, hclock]
      have hpositive : m.timestamp ≠ 0 := by
        have hdelay : 0 < minDelay := by decide
        omega
      constructor
      case none => exact fun hzero => absurd hzero hpositive
      case best =>
        intro _
        refine ⟨r, List.mem_append_right _ (List.mem_singleton_self r), ⟨rfl, ?_⟩, rfl, rfl, fun r' hr' hin => ?_⟩
        · rw [hnow]
          exact Nat.lt_add_of_pos_right (by decide)
        · rcases List.mem_append.mp hr' with hr' | hr'
          · exact absurd hin.1 ((h.none h0).2 r' hr')
          · rw [List.mem_singleton.mp hr']
      case lapsed => exact fun hclosed => absurd hclosed hfinal
    rw [if_neg h0]
    by_cases hbetter : m.timestamp < (s.bounties r.epoch).firstRevealAt + contestWindow
        ∧ r.seq < (s.bounties r.epoch).bestSeq
    · -- an earlier commit, still within the contest
      rw [if_pos hbetter]
      simp only [update_self]
      obtain ⟨rb, hmem, hcontest, hseq, hpay, hleast⟩ := h.best h0
      constructor
      case none => exact fun hzero => absurd hzero h0
      case best =>
        intro _
        refine ⟨r, List.mem_append_right _ (List.mem_singleton_self r), ⟨rfl, ?_⟩, rfl, rfl, fun r' hr' hin => ?_⟩
        · rw [hnow]
          exact hbetter.1
        · rcases List.mem_append.mp hr' with hr' | hr'
          · exact Nat.le_trans (Nat.le_of_lt hbetter.2) (hleast r' hr' hin)
          · rw [List.mem_singleton.mp hr']
      case lapsed => exact fun hclosed => absurd hclosed hfinal
    · rw [if_neg hbetter]
      refine h.outside (fun _ => h0) fun hin => ?_
      have hlt := hin.2
      rw [hnow] at hlt
      by_contra hless
      exact hbetter ⟨hlt, Nat.not_le.mp hless⟩
  · rw [noteBounty_of_ne r.seq r.payTo s (Ne.symm hepoch)]
    exact h.outside (fun heq => absurd heq hepoch) fun hin => absurd hin.1 hepoch

theorem Race.finalized {reveals : List Landed} {epoch e : UInt32} {s s' : State}
    (h : Race m.timestamp reveals epoch (s.bounties epoch)) (hs : Finalized m e s s') :
    Race m.timestamp reveals epoch (s'.bounties epoch) := by
  rw [hs.bounties]
  by_cases he : epoch = e
  · subst he
    rw [update_self]
    exact {
      none := fun h0 => absurd h0 hs.revealed
      best := h.best
      lapsed := fun _ => hs.lapsed }
  · rw [update_of_ne he]
    exact h

theorem step_race (h : Race tx.msg.timestamp reveals epoch (w.escrow.bounties epoch)) :
    Race tx.msg.timestamp (reveals ++ (landedBy C w tx).toList) epoch
      ((EscrowStep.step C w tx).escrow.bounties epoch) := by
  rcases tx_cases C w tx with ⟨call, hexecutes⟩ | ⟨hsame, hnone⟩
  · have heffect := exec_bounties hexecutes.2.2
    rw [landedBy_of_executes hexecutes]
    generalize (EscrowStep.step C w tx).escrow = s' at heffect ⊢
    cases heffect with
    | @revealed _ r _ _ hr hreveal =>
      rw [hr, (Accepted.bounties hreveal).1]
      exact Race.landed (r := ⟨r.epoch, _, r.payTo, _⟩) hreveal.late rfl h
    | finalized hfinal =>
      rw [show revealOf C tx.msg.sender (.finalizeBounty _) = none from rfl, Option.map_none, Option.toList_none,
        List.append_nil]
      exact h.finalized hfinal
    | claimed hbounties =>
      rw [show revealOf C tx.msg.sender .claim = none from rfl, Option.map_none, Option.toList_none,
        List.append_nil, hbounties]
      exact h
    | same hr _ hbounties =>
      rw [hr, Option.map_none, Option.toList_none, List.append_nil, hbounties]
      exact h
  · rw [hsame, hnone, Option.toList_none, List.append_nil]
    exact h

/-! ## One credit for an epoch -/

/-- A finalized bounty stays as it is, whatever lands afterwards. -/
theorem step_final {w : World} {tx : Tx} {epoch : UInt32} (hfinal : (w.escrow.bounties epoch).finalized = true) :
    (EscrowStep.step C w tx).escrow.bounties epoch = w.escrow.bounties epoch := by
  rcases tx_cases C w tx with ⟨call, hexecutes⟩ | ⟨hsame, -⟩
  · have heffect := exec_bounties hexecutes.2.2
    generalize (EscrowStep.step C w tx).escrow = s' at heffect ⊢
    cases heffect with
    | @revealed _ r _ _ _ hreveal =>
      rw [(Accepted.bounties hreveal).1]
      by_cases he : epoch = r.epoch
      · subst he
        rw [noteBounty_final _ _ hfinal]
      · exact noteBounty_of_ne _ _ _ he
    | @finalized e _ _ h =>
      rw [h.bounties]
      by_cases he : epoch = e
      · subst he
        rw [h.pending] at hfinal
        cases hfinal
      · exact update_of_ne he _ _
    | claimed hbounties => rw [hbounties]
    | same _ _ hbounties => rw [hbounties]
  · rw [hsame]

theorem run_final (hfinal : (w.escrow.bounties epoch).finalized = true) (txs : List Tx) :
    (run C w txs).escrow.bounties epoch = w.escrow.bounties epoch := by
  induction txs generalizing w with
  | nil => rfl
  | cons tx txs ih =>
    have hstep := @step_final C w tx epoch hfinal
    rw [run_cons, ih (by rw [hstep]; exact hfinal), hstep]

/-- **CREDITS** of an epoch: nothing before its bounty is finalized, then what was paid, to its
    winner. -/
structure Credit (b : EpochBounty) (total : Address → Nat) : Prop where
  total : ∀ payee, total payee = if b.finalized = true ∧ payee = b.bestPayTo then b.paid else 0
  paid : b.finalized = true → b.paid = 0 ∨ b.paid = bounty

theorem creditedBy_same (h : (EscrowStep.step C w tx).escrow.credits = w.escrow.credits) :
    creditedBy C epoch payee w tx = 0 := by
  rw [creditedBy]
  split
  · rw [h, Nat.sub_self, ite_self]
  · rfl

theorem creditedBy_other (h : tx.action ≠ .call (.finalizeBounty epoch)) : creditedBy C epoch payee w tx = 0 := by
  rw [creditedBy]
  split
  · rename_i e haction
    refine if_neg ?_
    rintro rfl
    exact h haction
  · rfl

/-- Noting a bounty opens and closes none. -/
theorem noteBounty_finalized (epoch other : UInt32) (seq : Nat) (payTo : Address) (s : State) :
    ((noteBounty m epoch seq payTo s).bounties other).finalized = (s.bounties other).finalized := by
  by_cases hother : other = epoch
  · subst hother
    rw [noteBounty]
    split
    · rfl
    · split
      · simp only [update_self]
      · split
        · simp only [update_self]
        · rfl
  · rw [noteBounty_of_ne _ _ _ hother]

theorem Credit.still_open (h : Credit b total) (hopen : b.finalized = false) (hopen' : b'.finalized = false)
    (htotal : ∀ payee, total' payee = total payee) : Credit b' total' where
  total := by
    intro payee
    rw [htotal, h.total, if_neg (by simp [hopen]), if_neg (by simp [hopen'])]
  paid := fun hfinal => by
    rw [hopen'] at hfinal
    cases hfinal

theorem Credit.congr (h : Credit b total) (hb : b' = b) (htotal : ∀ payee, total' payee = total payee) :
    Credit b' total' := by
  subst hb
  exact ⟨fun payee => by rw [htotal, h.total], h.paid⟩

theorem bountyPay_cases (s : State) : bountyPay s = 0 ∨ bountyPay s = bounty := by
  rw [bountyPay]
  split
  · exact Or.inr rfl
  · exact Or.inl rfl

theorem creditedBy_finalized (haction : tx.action = .call (.finalizeBounty epoch))
    (h : Finalized tx.msg epoch w.escrow (EscrowStep.step C w tx).escrow) : creditedBy C epoch payee w tx
      = if payee = (w.escrow.bounties epoch).bestPayTo then bountyPay w.escrow else 0 := by
  rw [creditedBy, haction]
  simp only [if_true]
  rw [h.credits, update_apply]
  by_cases hpayee : payee = (w.escrow.bounties epoch).bestPayTo
  · rw [if_pos hpayee, if_pos hpayee, hpayee, Nat.add_sub_cancel_left]
  · rw [if_neg hpayee, if_neg hpayee, Nat.sub_self]

/-- **STEP**: a transaction credits the bounty of an epoch only by finalizing it. -/
theorem step_credit (h : Credit (w.escrow.bounties epoch) total) :
    Credit ((EscrowStep.step C w tx).escrow.bounties epoch) fun payee =>
      total payee + creditedBy C epoch payee w tx := by
  rcases tx_cases C w tx with ⟨call, hexecutes⟩ | ⟨hsame, -⟩
  · have hfinish : ∀ e, call = .finalizeBounty e → Finalized tx.msg e w.escrow (EscrowStep.step C w tx).escrow := by
      rintro e rfl
      obtain ⟨s, hcall, hstep⟩ := onEscrow_ok_iff.mp hexecutes.2.2
      rw [hstep]
      exact finalizeBounty_spec hcall
    have hother : call ≠ .finalizeBounty epoch → ∀ payee, total payee
      + creditedBy C epoch payee w tx = total payee := by
      intro hne payee
      rw [creditedBy_other (by rw [hexecutes.1]; exact fun heq => hne (Action.call.inj heq)), Nat.add_zero]
    have heffect := exec_bounties hexecutes.2.2
    generalize hs' : (EscrowStep.step C w tx).escrow = s' at heffect hfinish ⊢
    cases heffect with
    | @revealed _ r _ _ hr hreveal =>
      have hcall : call ≠ .finalizeBounty epoch := by
        rintro rfl
        cases hr
      rw [(Accepted.bounties hreveal).1]
      cases hfinal : (w.escrow.bounties epoch).finalized with
      | false => exact h.still_open hfinal (by rw [noteBounty_finalized, hfinal]) (hother hcall)
      | true =>
        refine h.congr ?_ (hother hcall)
        by_cases he : epoch = r.epoch
        · rw [← he, noteBounty_final _ _ hfinal]
        · exact noteBounty_of_ne _ _ _ he
    | @finalized e _ _ hfinal =>
      by_cases he : e = epoch
      · subst he
        have hcredit : ∀ payee, creditedBy C e payee w tx
            = if payee = (w.escrow.bounties e).bestPayTo then bountyPay w.escrow else 0 :=
          fun payee => creditedBy_finalized hexecutes.1 (by rw [hs']; exact hfinal)
        rw [hfinal.bounties, update_self]
        constructor
        case total =>
          intro payee
          rw [h.total, if_neg (by simp [hfinal.pending]), Nat.zero_add, hcredit]
          simp only [true_and]
        case paid =>
          intro _
          dsimp only
          exact bountyPay_cases w.escrow
      · rw [hfinal.bounties, update_of_ne (Ne.symm he)]
        exact h.congr rfl (hother fun heq => he (Call.finalizeBounty.inj heq))
    | claimed hbounties => exact h.congr (by rw [hbounties]) (hother nofun)
    | same _ hcall hbounties => exact h.congr (by rw [hbounties]) (hother (hcall epoch))
  · refine h.congr (by rw [hsame]) fun payee => ?_
    rw [creditedBy_same (by rw [hsame]), Nat.add_zero]

theorem credits_rise (h : w.escrow.credits payee < (EscrowStep.step C w tx).escrow.credits payee) :
    ∃ epoch, tx.action = .call (.finalizeBounty epoch) := by
  rcases tx_cases C w tx with ⟨call, hexecutes⟩ | ⟨hsame, -⟩
  · have heffect := exec_bounties hexecutes.2.2
    rw [hexecutes.1]
    generalize (EscrowStep.step C w tx).escrow = s' at heffect h
    cases heffect with
    | revealed _ hreveal =>
      rw [(Accepted.bounties hreveal).2] at h
      exact absurd h (Nat.lt_irrefl _)
    | @finalized e _ _ _ => exact ⟨e, rfl⟩
    | claimed _ hcredits =>
      rw [hcredits, update_apply] at h
      split at h
      · exact absurd h (Nat.not_lt_zero _)
      · exact absurd h (Nat.lt_irrefl _)
    | same _ _ _ hcredits =>
      rw [hcredits] at h
      exact absurd h (Nat.lt_irrefl _)
  · rw [hsame] at h
    exact absurd h (Nat.lt_irrefl _)

/-! ## Whole runs -/

/-- What holds after a run from deployment. -/
structure Standing (C : Contract) (token : Token) (txs : List Tx) (now : Nat) : Prop where
  numbered : Numbered (run C (start C token) txs).escrow (landed C (start C token) txs)
  race : ∀ epoch, Race now (landed C (start C token) txs) epoch ((run C (start C token) txs).escrow.bounties epoch)
  credit : ∀ epoch, Credit ((run C (start C token) txs).escrow.bounties epoch) fun payee =>
    credited C epoch payee (start C token) txs

/-- **RUN**: the race and the credits of every epoch, after any run. -/
theorem run_standing (C : Contract) (token : Token) (ht : Timely txs) (hlast : ∀ tx ∈ txs, tx.msg.timestamp ≤ now) :
    Standing C token txs now := by
  induction txs using List.reverseRecOn generalizing now with
  | nil =>
    exact {
      numbered := numbered_initial
      race := fun epoch => (race_initial epoch).wait (Nat.zero_le _)
      credit := fun epoch => ⟨fun payee => (if_neg (fun h => nomatch h.1)).symm, fun h => nomatch h⟩ }
  | append_singleton txs tx ih =>
    obtain ⟨ht, hle⟩ := timely_concat.mp ht
    have h := ih ht hle
    have hnow := hlast tx (List.mem_append_right _ (List.mem_singleton_self tx))
    constructor
    case numbered =>
      rw [run_concat, landed_concat]
      exact step_numbered h.numbered
    case race =>
      intro epoch
      rw [run_concat, landed_concat]
      exact (step_race (h.race epoch)).wait hnow
    case credit =>
      intro epoch
      rw [run_concat]
      exact (step_credit (h.credit epoch)).congr rfl fun payee => credited_concat epoch payee _ txs tx

theorem contest_best (C : Contract) (token : Token) (ht : Timely txs)
    (hb : (run C (start C token) txs).escrow.bounties epoch = b) (hfirst : b.firstRevealAt ≠ 0) :
    ∃ r ∈ landed C (start C token) txs, InContest epoch b r ∧ r.seq = b.bestSeq ∧ r.payTo = b.bestPayTo
      ∧ ∀ r' ∈ landed C (start C token) txs, InContest epoch b r' → r' = r ∨ r.seq < r'.seq := by
  have h := run_standing C token ht (fun tx _ => Nat.le_of_lt tx.msg.inRange)
  have hrace := h.race epoch
  rw [hb] at hrace
  obtain ⟨r, hmem, hcontest, hseq, hpay, hleast⟩ := hrace.best hfirst
  refine ⟨r, hmem, hcontest, hseq, hpay, fun r' hmem' hcontest' => ?_⟩
  rcases Nat.lt_or_eq_of_le (hleast r' hmem' hcontest') with hlt | heq
  · exact Or.inr (hseq ▸ hlt)
  · exact Or.inl (List.inj_on_of_nodup_map h.numbered.nodup hmem' hmem (heq.symm.trans hseq.symm))

theorem revealed_of_final (C : Contract) (token : Token) (ht : Timely txs)
    (hb : (run C (start C token) txs).escrow.bounties epoch = b) (hfinal : b.finalized = true) :
    b.firstRevealAt ≠ 0 := by
  have hrace := (run_standing C token ht (fun tx _ => Nat.le_of_lt tx.msg.inRange)).race epoch
  rw [hb] at hrace
  intro h0
  rw [(hrace.none h0).1] at hfinal
  cases hfinal

/-- **THE WINNER OF A BOUNTY.**  Once the bounty of an epoch is finalized, its best address and
    number are those of the one reveal with the smallest commit number among all reveals of
    the epoch, of the whole run, that landed before the contest closed.  Nothing that lands
    afterwards changes the bounty, and over the whole run it is credited once at most, in full
    or not at all, to that address. -/
theorem bounty_winner (C : Contract) (token : Token) {txs later : List Tx} (ht : Timely (txs ++ later)) (epoch : UInt32)
    (hfinal : ((run C (start C token) txs).escrow.bounties epoch).finalized = true) :
    let b := (run C (start C token) txs).escrow.bounties epoch
    (∃ r ∈ landed C (start C token) (txs ++ later), InContest epoch b r ∧ r.seq = b.bestSeq ∧ r.payTo = b.bestPayTo
        ∧ ∀ r' ∈ landed C (start C token) (txs ++ later), InContest epoch b r' → r' = r ∨ r.seq < r'.seq)
      ∧ (run C (start C token) (txs ++ later)).escrow.bounties epoch = b
      ∧ (∀ payee, credited C epoch payee (start C token) (txs ++ later) = if payee = b.bestPayTo then b.paid else 0)
      ∧ (b.paid = 0 ∨ b.paid = bounty)
      ∧ ∀ w tx payee, w.escrow.credits payee < (EscrowStep.step C w tx).escrow.credits payee →
        ∃ e, tx.action = .call (.finalizeBounty e) := by
  intro b
  have hclosed : b.finalized = true := hfinal
  have hb : (run C (start C token) (txs ++ later)).escrow.bounties epoch = b := by
    rw [run_append]
    exact run_final hfinal later
  have hcredit := (run_standing C token ht (fun tx _ => Nat.le_of_lt tx.msg.inRange)).credit epoch
  rw [hb] at hcredit
  refine ⟨contest_best C token ht hb (revealed_of_final C token ht hb hclosed), hb, ?_, hcredit.paid hclosed,
    fun _ _ _ => credits_rise⟩
  intro payee
  rw [hcredit.total]
  simp only [hclosed, true_and]

/-- The reveal of the fork, its bounty, and Alice's claim of it. -/
def forkWonTxs : List Tx := forkRevealTxs ++ [forkTx forkCarol 1801299900 (.finalizeBounty 7)]

/-- Alice is the one who is credited. -/
theorem bounty_winner_alice : credited forkContract 7 forkAlice (start forkContract forkToken)
    (forkWonTxs ++ [forkTx forkAlice 1801299901 .claim]) = 50000000 := by
  have hfacts : ((run forkContract (start forkContract forkToken) forkWonTxs).escrow.bounties 7).finalized = true
      ∧ ((run forkContract (start forkContract forkToken) forkWonTxs).escrow.bounties 7).bestPayTo = forkAlice
      ∧ ((run forkContract (start forkContract forkToken) forkWonTxs).escrow.bounties 7).paid = 50000000 := by
    decide +kernel
  obtain ⟨hfinal, hwinner, hpaid⟩ := hfacts
  have ht : Timely (forkWonTxs ++ [forkTx forkAlice 1801299901 .claim]) := by decide
  obtain ⟨-, -, hcredited, -⟩ := bounty_winner forkContract forkToken ht 7 hfinal
  rw [hcredited, ← hpaid]
  exact if_pos hwinner.symm

end EscrowWinner
