import Chit402.EscrowTimelineProofs
import Mathlib.Data.Set.Card

/-! # Coverage of commits and the frozen time of a run

    Two facts about whole runs:

      * a withdrawal after activation comes after the reveal window of every
        commit the contract ever accepted (`commit_expired`);
      * the seconds in which withdrawal is frozen are those of the incidents'
        freezes, which are apart from each other and are what `frozenUsed`
        was charged with (`frozenSeconds_eq`). -/

namespace EscrowCoverage

open Solidity EscrowState EscrowContract EscrowStep EscrowRun EscrowSolvency
  EscrowTimeline Function Finset

variable {C : Contract} {m : Msg}

/-! ## The notice clock -/

variable {txs : List Tx} {committedAt now second : Nat} {s : State} {tx : Tx} {w w' : World}

/-- A call leaves the notice as it is, cancels it, or gives it now. -/
theorem exec_notice {c : Call} (hexec : exec C m c w = .ok w') :
    w'.escrow.noticeAt = w.escrow.noticeAt ∨ w'.escrow.noticeAt = 0 ∨ w'.escrow.noticeAt = m.timestamp := by
  have h := exec_effect hexec
  generalize w'.escrow = s' at h ⊢
  cases h with
  | owner _ _ hnotice => exact hnotice
  | commit hcall =>
    obtain ⟨-, -, commits, slots, seq, rfl⟩ := commit_ok hcall
    exact Or.inl rfl
  | revealA hcall => exact Or.inl (revealA_ok hcall).1.noticeAt_eq
  | revealB hcall => exact Or.inl (revealB_ok hcall).1.noticeAt_eq
  | finalizeBounty hcall =>
    obtain ⟨-, -, -, pay, -, rfl⟩ := finalizeBounty_ok hcall
    exact Or.inl rfl
  | registerRefund hcall =>
    obtain ⟨-, -, -, -, -, rfl⟩ := registerRefund_ok hcall
    exact Or.inl rfl
  | settle hcall =>
    obtain ⟨-, -, -, -, -, -, rfl⟩ := settle_ok hcall
    exact Or.inl rfl
  | claimRefund => exact Or.inl rfl
  | claim => exact Or.inl rfl

/-- The commit was accepted while the notice in force, if any, still covered it. -/
def CoveredBy (committedAt : Nat) (s : State) : Prop :=
  s.noticeAt ≠ 0 → committedAt < s.noticeAt + noticePeriod

theorem step_covered (h : CoveredBy committedAt w.escrow) (hlater : committedAt ≤ tx.msg.timestamp) :
    CoveredBy committedAt (EscrowStep.step C w tx).escrow := by
  rcases step_cases C w tx with hsame | ⟨c, -, -, hexec⟩
  · rwa [hsame]
  · intro hnotice
    rcases exec_notice hexec with heq | heq | heq
    · rw [heq] at hnotice ⊢
      exact h hnotice
    · exact absurd heq hnotice
    · -- a notice given after the commit
      have hperiod : 0 < noticePeriod := by decide
      omega

theorem run_covered (h : CoveredBy committedAt w.escrow) (hlater : ∀ tx ∈ txs, committedAt ≤ tx.msg.timestamp) :
    CoveredBy committedAt (run C w txs).escrow := by
  induction txs generalizing w with
  | nil => exact h
  | cons tx txs ih =>
    refine ih (step_covered h (hlater tx List.mem_cons_self)) fun tx' hmem => ?_
    exact hlater tx' (List.mem_cons_of_mem _ hmem)

/-- **NO COMMIT IS STRANDED**: when a withdrawal goes through after activation, the reveal
    window of every accepted commit is over. -/
theorem commit_expired {w0 w1 : World} {pre post : List Tx} {c : Word} (ht : Timely (pre ++ tx :: post))
    (hcommit : Executes C (run C w0 pre) tx (.commit c) w1)
    (hact : (run C w0 (pre ++ tx :: post)).escrow.activatedAt ≠ 0)
    (hwithdraw : withdraw C m (run C w0 (pre ++ tx :: post)) = .ok w') :
    tx.msg.timestamp + minDelay + revealWindow < m.timestamp := by
  have hcovered : CoveredBy tx.msg.timestamp w1.escrow := by
    obtain ⟨s, hcall, rfl⟩ := onEscrow_ok_iff.mp hcommit.2.2
    obtain ⟨-, hcover, commits, slots, seq, rfl⟩ := commit_ok hcall
    exact hcover
  have hlater : ∀ tx' ∈ post, tx.msg.timestamp ≤ tx'.msg.timestamp :=
    (List.pairwise_cons.mp (List.pairwise_append.mp ht).2.1).1
  have hend : run C w0 (pre ++ tx :: post) = run C w1 post := by
    rw [run_append, run_cons, hcommit.step]
  rw [hend] at hact hwithdraw
  obtain ⟨-, -, reserve, hreserve, -⟩ := withdraw_ok hwithdraw
  obtain ⟨hnotice, hgrace, -⟩ := withdrawReserve_ok hreserve hact
  rw [revealGraceEnd, if_neg hnotice] at hgrace
  have hlast := run_covered (C := C) hcovered hlater hnotice
  omega

/-! ## The frozen seconds of a run -/

/-- The world at the end of a second. -/
def worldAt (C : Contract) (token : Token) (txs : List Tx) (second : Nat) : World :=
  run C (start C token) (txs.filter fun tx => tx.msg.timestamp ≤ second)

def frozenSeconds (C : Contract) (token : Token) (txs : List Tx) : Set Nat :=
  { second | frozen second (worldAt C token txs second).escrow }

/-- The seconds of the incidents' freezes. -/
def freezes (s : State) : Finset Nat :=
  (Icc 1 s.incidentCount).biUnion fun i =>
    Ico (s.incidents i).openedAt (s.incidents i).freezeUntil

theorem mem_freezes : second ∈ freezes s ↔ ∃ i ∈ Icc 1 s.incidentCount,
      (s.incidents i).openedAt ≤ second ∧ second < (s.incidents i).freezeUntil := by
  rw [freezes, mem_biUnion]
  exact exists_congr fun i => and_congr_right fun _ => mem_Ico

theorem frozen_iff (h : Timeline s now) (hle : now ≤ second) : frozen second s ↔ second ∈ freezes s := by
  rw [frozen, h.until_sup, Finset.lt_sup_iff, mem_freezes]
  refine exists_congr fun i => and_congr_right fun hi => ?_
  obtain ⟨h1, hi⟩ := mem_Icc.mp hi
  exact ⟨fun hlt => ⟨Nat.le_trans (h.openedAt_le i h1 hi) hle, hlt⟩, fun hboth => hboth.2⟩

/-- A transaction freezes no second before its own. -/
theorem step_freezes (hlt : second < tx.msg.timestamp) :
    second ∈ freezes (EscrowStep.step C w tx).escrow ↔ second ∈ freezes w.escrow := by
  rcases step_cases C w tx with hsame | ⟨c, -, -, hexec⟩
  · rw [hsame]
  · rw [mem_freezes, mem_freezes]
    cases exec_timeline hexec with
    | same hs => simp only [hs.count, hs.openedAt, hs.incidentUntil]
    | new hs =>
      rw [hs.count, Icc_one_succ]
      constructor
      · rintro ⟨i, hi, hopened, huntil⟩
        rcases mem_insert.mp hi with rfl | hi
        · rw [hs.openedAt] at hopened
          exact absurd hopened (Nat.not_le.mpr hlt)
        · have hne := Nat.ne_of_lt (Nat.lt_succ_of_le (mem_Icc.mp hi).2)
          rw [hs.same i hne] at hopened huntil
          exact ⟨i, hi, hopened, huntil⟩
      · rintro ⟨i, hi, hopened, huntil⟩
        have hne := Nat.ne_of_lt (Nat.lt_succ_of_le (mem_Icc.mp hi).2)
        refine ⟨i, mem_insert_of_mem hi, ?_⟩
        rw [hs.same i hne]
        exact ⟨hopened, huntil⟩

/-- **FROZEN TIME IS CHARGED TIME**: a second is frozen exactly when an incident's freeze
    holds it. -/
theorem frozenSeconds_eq (hC : Deployed C) (token : Token) (ht : Timely txs) :
    frozenSeconds C token txs = freezes (run C (start C token) txs).escrow := by
  induction txs using List.reverseRecOn with
  | nil =>
    ext second
    exact ⟨fun h => absurd h (Nat.not_lt_zero second), fun h => absurd h (notMem_empty second)⟩
  | append_singleton txs tx ih =>
    obtain ⟨ht', hle⟩ := timely_concat.mp ht
    ext second
    rw [mem_coe]
    rcases Nat.lt_or_ge second tx.msg.timestamp with hlt | hge
    · have hbefore : worldAt C token (txs ++ [tx]) second = worldAt C token txs second := by
        rw [worldAt, worldAt, List.filter_append, List.filter_cons_of_neg, List.filter_nil, List.append_nil]
        simpa using hlt
      rw [frozenSeconds, Set.mem_ofPred_eq, hbefore, run_concat, step_freezes hlt, ← mem_coe, ← ih ht']
      rfl
    · have hall : ∀ tx' ∈ txs ++ [tx], tx'.msg.timestamp ≤ tx.msg.timestamp := by
        intro tx' hmem
        rcases List.mem_append.mp hmem with hmem | hmem
        · exact hle tx' hmem
        · rw [List.mem_singleton.mp hmem]
      have hafter : worldAt C token (txs ++ [tx]) second = run C (start C token) (txs ++ [tx]) := by
        rw [worldAt, List.filter_eq_self.mpr]
        exact fun tx' hmem => decide_eq_true (Nat.le_trans (hall tx' hmem) hge)
      rw [frozenSeconds, Set.mem_ofPred_eq, hafter]
      exact frozen_iff (timeline (reachable_of_run hC token ht hall)) hge

/-- The freezes are apart from each other, so charging them up front counts the seconds. -/
theorem card_freezes (h : Timeline s now) : (freezes s).card = s.frozenUsed := by
  have hapart : ∀ i j, 1 ≤ i → i < j → j ≤ s.incidentCount →
      Disjoint (Ico (s.incidents i).openedAt (s.incidents i).freezeUntil)
        (Ico (s.incidents j).openedAt (s.incidents j).freezeUntil) := by
    intro i j h1 hlt hle
    rw [disjoint_left]
    intro second hi hj
    have huntil := h.until_le i h1 (Nat.le_trans (Nat.le_of_lt hlt) hle)
    have hclose := h.apart i j h1 hlt hle
    have hi := (mem_Ico.mp hi).2
    have hj := (mem_Ico.mp hj).1
    omega
  rw [freezes, card_biUnion, h.used_eq]
  · exact sum_congr rfl fun i _ => Nat.card_Ico _ _
  · intro i hi j hj hne
    obtain ⟨hi1, hi⟩ := mem_Icc.mp hi
    obtain ⟨hj1, hj⟩ := mem_Icc.mp hj
    rcases Nat.lt_or_gt_of_ne hne with hlt | hlt
    · exact hapart i j hi1 hlt hj
    · exact (hapart j i hj1 hlt hi).symm

/-- **COVERAGE AND FREEZE OF A RUN**: no withdrawal strands a commit, and the frozen seconds
    are as many as `frozenUsed` says, the sum of the freezes, within the cap. -/
theorem covers_and_bounds (hC : Deployed C) (token : Token) {txs : List Tx} (ht : Timely txs) :
    (∀ pre tx post c w1, txs = pre ++ tx :: post → Executes C (run C (start C token) pre) tx (.commit c) w1 →
        (run C (start C token) txs).escrow.activatedAt ≠ 0 →
        ∀ (m : Msg) w', withdraw C m (run C (start C token) txs) = .ok w' →
          tx.msg.timestamp + minDelay + revealWindow < m.timestamp) ∧ (frozenSeconds C token txs).Finite
    ∧ (frozenSeconds C token txs).ncard = (run C (start C token) txs).escrow.frozenUsed
    ∧ (run C (start C token) txs).escrow.frozenUsed = ∑ i ∈ Icc 1 (run C (start C token) txs).escrow.incidentCount,
          (((run C (start C token) txs).escrow.incidents i).freezeUntil
            - ((run C (start C token) txs).escrow.incidents i).openedAt)
    ∧ (run C (start C token) txs).escrow.frozenUsed ≤ freezeCap := by
  obtain ⟨now, hnow⟩ : ∃ now, ∀ tx ∈ txs, tx.msg.timestamp ≤ now :=
    ⟨(txs.map fun tx => tx.msg.timestamp).sum, fun tx hmem =>
      List.le_sum_of_mem (List.mem_map_of_mem (f := fun tx => tx.msg.timestamp) hmem)⟩
  have hreach := reachable_of_run hC token ht hnow
  have htimeline := timeline hreach
  rw [frozenSeconds_eq hC token ht, Set.ncard_coe_finset, card_freezes htimeline]
  refine ⟨?_, finite_toSet _, rfl, htimeline.used_eq, (solvent hreach).books.frozenUsed_le⟩
  rintro pre tx post c w1 rfl hcommit hact m w' hwithdraw
  exact commit_expired ht hcommit hact hwithdraw

/-- Alice's commit is past its window when the owner leaves, after one full freeze. -/
theorem covers_and_bounds_sample : 1801296000 + minDelay + revealWindow < 1802505900
      ∧ (frozenSeconds forkContract forkToken forkRevealTxs).ncard = 1209600 := by
  have ht : Timely forkRevealTxs := by decide
  have hfacts : (run forkContract (start forkContract forkToken) forkRevealTxs).escrow.frozenUsed
        = 1209600
      ∧ (run forkContract (start forkContract forkToken) forkRevealTxs).escrow.activatedAt ≠ 0
      ∧ (exec forkContract (forkMsg forkOwner 1802505900) .withdraw
          (run forkContract (start forkContract forkToken) forkRevealTxs)).toOption.isSome = true
      ∧ (exec forkContract (forkMsg forkAlice 1801296000) (.commit forkCommit)
          (run forkContract (start forkContract forkToken)
            (forkRevealTxs.take 4))).toOption.isSome = true := by
    decide +kernel
  obtain ⟨hused, hact, hwithdraw, hcommit⟩ := hfacts
  obtain ⟨w', hw'⟩ := exec_of_isSome hwithdraw
  obtain ⟨w1, hw1⟩ := exec_of_isSome hcommit
  obtain ⟨hcovers, -, hfrozen, -⟩ := covers_and_bounds fork_deployed forkToken ht
  refine ⟨?_, hfrozen.trans hused⟩
  exact hcovers (forkRevealTxs.take 4) (forkTx forkAlice 1801296000 (.commit forkCommit))
    (forkRevealTxs.drop 5) forkCommit w1 rfl ⟨rfl, by decide, hw1⟩ hact _ w' hw'

end EscrowCoverage
