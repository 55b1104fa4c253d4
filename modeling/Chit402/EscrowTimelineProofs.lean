import Chit402.EscrowRunProofs
import Chit402.EscrowSolvencyProofs
import Mathlib.Order.Lattice.Nat

/-! # The timeline of incidents

    One incident at a time: each opens after the claim window of the one
    before it, and its freeze lies within its own window. -/

namespace EscrowTimeline

open ExceptFlow EscrowState EscrowContract EscrowStep EscrowRun EscrowLedger
  EscrowSolvency Function Finset

variable {C : Contract} {m : Msg}

/-! ## What a call does to the timeline -/

/-- The windows and freezes stay, and only an incident past its window gets settled. -/
structure SameWindows (m : Msg) (s s' : State) : Prop where
  count : s'.incidentCount = s.incidentCount
  freezeUntil : s'.freezeUntil = s.freezeUntil
  frozenUsed : s'.frozenUsed = s.frozenUsed
  activated : s.activatedAt ≠ 0 → s'.activatedAt ≠ 0
  openedAt : ∀ i, (s'.incidents i).openedAt = (s.incidents i).openedAt
  closeAt : ∀ i, (s'.incidents i).claimsCloseAt = (s.incidents i).claimsCloseAt
  incidentUntil : ∀ i, (s'.incidents i).freezeUntil = (s.incidents i).freezeUntil
  settled : ∀ i, (s'.incidents i).settled = true →
    (s.incidents i).settled = true ∨ (s.incidents i).claimsCloseAt < m.timestamp

/-- A new incident opens now, with its window and its freeze. -/
structure NewWindow (m : Msg) (s s' : State) : Prop where
  activated : s'.activatedAt ≠ 0
  noneOpen : s.openIncidents = 0
  count : s'.incidentCount = s.incidentCount + 1
  freezeUntil : s'.freezeUntil
    = if freezeLength s = 0 then s.freezeUntil else m.timestamp + freezeLength s
  frozenUsed : s'.frozenUsed = s.frozenUsed + freezeLength s
  same : ∀ i, i ≠ s.incidentCount + 1 → s'.incidents i = s.incidents i
  openedAt : (s'.incidents (s.incidentCount + 1)).openedAt = m.timestamp
  closeAt : (s'.incidents (s.incidentCount + 1)).claimsCloseAt = m.timestamp + claimWindow
  incidentUntil : (s'.incidents (s.incidentCount + 1)).freezeUntil
    = if freezeLength s = 0 then 0 else m.timestamp + freezeLength s
  unsettled : (s'.incidents (s.incidentCount + 1)).settled = false

inductive TimelineStep (m : Msg) (s s' : State) : Prop where
  | same (h : SameWindows m s s')
  | new (h : NewWindow m s s')

variable {c : Call} {now : Nat} {s s' : State} {w w' : World}

theorem SameWindows.of_incidents (hcount : s'.incidentCount = s.incidentCount)
    (hfreeze : s'.freezeUntil = s.freezeUntil) (hused : s'.frozenUsed = s.frozenUsed)
    (hact : s.activatedAt ≠ 0 → s'.activatedAt ≠ 0) (hinc : s'.incidents = s.incidents) : SameWindows m s s' :=
  ⟨hcount, hfreeze, hused, hact, fun i => by rw [hinc], fun i => by rw [hinc], fun i => by rw [hinc],
    fun i hs => Or.inl (by rwa [hinc] at hs)⟩

/-- Rewriting one incident's money and settlement keeps its window. -/
theorem SameWindows.of_update {id : Nat} {inc : Incident} (hcount : s'.incidentCount = s.incidentCount)
    (hfreeze : s'.freezeUntil = s.freezeUntil) (hused : s'.frozenUsed = s.frozenUsed)
    (hact : s'.activatedAt = s.activatedAt) (hinc : s'.incidents = update s.incidents id inc)
    (hopened : inc.openedAt = (s.incidents id).openedAt) (hclose : inc.claimsCloseAt = (s.incidents id).claimsCloseAt)
    (huntil : inc.freezeUntil = (s.incidents id).freezeUntil) (hsettled : inc.settled = true →
      (s.incidents id).settled = true ∨ (s.incidents id).claimsCloseAt < m.timestamp) : SameWindows m s s' := by
  refine ⟨hcount, hfreeze, hused, fun h => hact ▸ h, fun i => ?_, fun i => ?_, fun i => ?_, fun i hs => ?_⟩
  all_goals
    rw [hinc, update_apply] at *
    split at *
  · rename_i hi
    rw [hi, hopened]
  · rfl
  · rename_i hi
    rw [hi, hclose]
  · rfl
  · rename_i hi
    rw [hi, huntil]
  · rfl
  · rename_i hi
    rw [hi]
    exact hsettled hs
  · exact Or.inl hs

theorem opened_timeline {epoch : UInt32} {incidentId : Nat} (hact : s.activatedAt ≠ 0)
    (hopen : OpenedOrJoined C m epoch s incidentId s') : TimelineStep m s s' := by
  cases hopen with
  | joined => exact .same (.of_incidents rfl rfl rfl id rfl)
  | opened hnew hnone hcap incidentId hid close «until» frozenUsed freezeUntil hclose huntil hused
      hfreeze =>
      subst hid
      have hself := update_self (s.incidentCount + 1)
        (Incident.mk epoch m.timestamp close «until» false 0 0) s.incidents
      refine .new ⟨hact, hnone, rfl, ?_, hused, fun i hi => update_of_ne hi _ s.incidents,
        congrArg Incident.openedAt hself, (congrArg Incident.claimsCloseAt hself).trans hclose,
        (congrArg Incident.freezeUntil hself).trans huntil, congrArg Incident.settled hself⟩
      by_cases h0 : freezeLength s = 0
      · rw [if_pos h0] at hfreeze ⊢
        exact hfreeze
      · rw [if_neg h0] at hfreeze huntil ⊢
        exact hfreeze.trans huntil

theorem revealed_timeline (h : Revealed C m s s') : TimelineStep m s s' := by
  obtain ⟨commits, epoch, incidentId, s1, _, _, _, _, hopen, rfl⟩ := h.opened_or_joined
  have hact : { s with commits := commits }.activatedAt ≠ 0 := h.activated
  cases opened_timeline hact hopen with
  | same h => exact .same { h with }
  | new h => exact .new { h with }

/-- **STEP**: a call keeps the windows, or opens the next one. -/
theorem exec_timeline (hexec : exec C m c w = .ok w') : TimelineStep m w.escrow w'.escrow := by
  have h := exec_effect hexec
  generalize w'.escrow = s' at h ⊢
  cases h with
  | owner _ hact _ => exact .same (.of_incidents rfl rfl rfl (fun hpos => (hact hpos).trans_ne hpos) rfl)
  | commit hcall =>
    obtain ⟨-, -, commits, slots, seq, rfl⟩ := commit_ok hcall
    exact .same (.of_incidents rfl rfl rfl id rfl)
  | revealA hcall => exact revealed_timeline (revealA_ok hcall).1
  | revealB hcall => exact revealed_timeline (revealB_ok hcall).1
  | finalizeBounty hcall =>
    obtain ⟨-, -, -, pay, -, rfl⟩ := finalizeBounty_ok hcall
    exact .same (.of_incidents rfl rfl rfl id rfl)
  | registerRefund hcall =>
    obtain ⟨-, -, -, -, -, rfl⟩ := registerRefund_ok hcall
    exact .same (.of_update rfl rfl rfl rfl rfl rfl rfl rfl Or.inl)
  | settle hcall =>
    obtain ⟨-, -, -, hlate, -, -, rfl⟩ := settle_ok hcall
    exact .same (.of_update rfl rfl rfl rfl rfl rfl rfl rfl fun _ => Or.inr hlate)
  | claimRefund | claim => exact .same (.of_incidents rfl rfl rfl id rfl)

/-! ## The timeline of a reachable world -/

/-- **THE TIMELINE**: windows follow one another, freezes lie within them, and the freeze of
    the contract is the latest of theirs. -/
structure Timeline (s : State) (now : Nat) : Prop where
  activated : s.incidentCount ≠ 0 → s.activatedAt ≠ 0
  openedAt_le : ∀ i, 1 ≤ i → i ≤ s.incidentCount → (s.incidents i).openedAt ≤ now
  closeAt_eq : ∀ i, 1 ≤ i → i ≤ s.incidentCount →
    (s.incidents i).claimsCloseAt = (s.incidents i).openedAt + claimWindow
  until_le : ∀ i, 1 ≤ i → i ≤ s.incidentCount →
    (s.incidents i).freezeUntil ≤ (s.incidents i).claimsCloseAt
  settled_late : ∀ i, 1 ≤ i → i ≤ s.incidentCount → (s.incidents i).settled = true →
    (s.incidents i).claimsCloseAt < now
  apart : ∀ i j, 1 ≤ i → i < j → j ≤ s.incidentCount →
    (s.incidents i).claimsCloseAt < (s.incidents j).openedAt
  until_sup : s.freezeUntil = (Icc 1 s.incidentCount).sup fun i => (s.incidents i).freezeUntil
  used_eq : s.frozenUsed = ∑ i ∈ Icc 1 s.incidentCount,
    ((s.incidents i).freezeUntil - (s.incidents i).openedAt)

theorem timeline_initial (now : Nat) : Timeline initial now :=
  ⟨fun h => absurd rfl h, fun i h1 hle => absurd (Nat.le_trans h1 hle) (by decide),
    fun i h1 hle => absurd (Nat.le_trans h1 hle) (by decide),
    fun i h1 hle => absurd (Nat.le_trans h1 hle) (by decide),
    fun i h1 hle => absurd (Nat.le_trans h1 hle) (by decide),
    fun i j h1 hlt hle => absurd (Nat.le_trans h1 (Nat.le_trans (Nat.le_of_lt hlt) hle)) (by decide),
    rfl, rfl⟩

theorem Timeline.wait {later : Nat} (h : Timeline s now) (hle : now ≤ later) : Timeline s later :=
  { h with
    openedAt_le := fun i h1 hi => Nat.le_trans (h.openedAt_le i h1 hi) hle
    settled_late := fun i h1 hi hs => Nat.lt_of_lt_of_le (h.settled_late i h1 hi hs) hle }

theorem Timeline.same (h : Timeline s m.timestamp) (hs : SameWindows m s s') : Timeline s' m.timestamp := by
  constructor
  case activated => exact fun hcount => hs.activated (h.activated (hs.count ▸ hcount))
  case openedAt_le =>
    intro i h1 hle
    rw [hs.openedAt]
    exact h.openedAt_le i h1 (hs.count ▸ hle)
  case closeAt_eq =>
    intro i h1 hle
    rw [hs.openedAt, hs.closeAt]
    exact h.closeAt_eq i h1 (hs.count ▸ hle)
  case until_le =>
    intro i h1 hle
    rw [hs.incidentUntil, hs.closeAt]
    exact h.until_le i h1 (hs.count ▸ hle)
  case settled_late =>
    intro i h1 hle hsettled
    rw [hs.closeAt]
    rcases hs.settled i hsettled with hsettled | hlate
    · exact h.settled_late i h1 (hs.count ▸ hle) hsettled
    · exact hlate
  case apart =>
    intro i j h1 hlt hle
    rw [hs.closeAt, hs.openedAt]
    exact h.apart i j h1 hlt (hs.count ▸ hle)
  case until_sup =>
    rw [hs.count, hs.freezeUntil, h.until_sup]
    exact sup_congr rfl fun i _ => (hs.incidentUntil i).symm
  case used_eq =>
    rw [hs.count, hs.frozenUsed, h.used_eq]
    exact sum_congr rfl fun i _ => by rw [hs.incidentUntil, hs.openedAt]

theorem Icc_one_succ (n : Nat) : Icc 1 (n + 1) = insert (n + 1) (Icc 1 n) := by
  ext i
  rw [mem_insert, mem_Icc, mem_Icc]
  omega

/-- The next window opens after every earlier one has closed. -/
theorem Timeline.new (h : Timeline s m.timestamp) (hbooks : Books s) (hs : NewWindow m s s') :
    Timeline s' m.timestamp := by
  have hold : ∀ i, i ≤ s.incidentCount → s'.incidents i = s.incidents i :=
    fun i hle => hs.same i (Nat.ne_of_lt (Nat.lt_succ_of_le hle))
  have hlate : ∀ i, 1 ≤ i → i ≤ s.incidentCount → (s.incidents i).claimsCloseAt < m.timestamp :=
    fun i h1 hle => h.settled_late i h1 hle (hbooks.all_settled hs.noneOpen h1 hle)
  have hlen : freezeLength s ≤ claimWindow := Nat.min_le_right _ _
  have hlast : s.incidentCount + 1 ∉ Icc 1 s.incidentCount :=
    fun hmem => absurd (mem_Icc.mp hmem).2 (Nat.not_succ_le_self _)
  -- earlier incidents stand, the new one goes by its window
  constructor
  case activated => exact fun _ => hs.activated
  case openedAt_le =>
    intro i h1 hle
    rw [hs.count] at hle
    rcases Nat.lt_or_eq_of_le hle with hlt | rfl
    · rw [hold i (Nat.le_of_lt_succ hlt)]
      exact h.openedAt_le i h1 (Nat.le_of_lt_succ hlt)
    · exact Nat.le_of_eq hs.openedAt
  case closeAt_eq =>
    intro i h1 hle
    rw [hs.count] at hle
    rcases Nat.lt_or_eq_of_le hle with hlt | rfl
    · rw [hold i (Nat.le_of_lt_succ hlt)]
      exact h.closeAt_eq i h1 (Nat.le_of_lt_succ hlt)
    · rw [hs.closeAt, hs.openedAt]
  case until_le =>
    intro i h1 hle
    rw [hs.count] at hle
    rcases Nat.lt_or_eq_of_le hle with hlt | rfl
    · rw [hold i (Nat.le_of_lt_succ hlt)]
      exact h.until_le i h1 (Nat.le_of_lt_succ hlt)
    · rw [hs.closeAt, hs.incidentUntil]
      split
      · exact Nat.zero_le _
      · exact Nat.add_le_add_left hlen _
  case settled_late =>
    intro i h1 hle hsettled
    rw [hs.count] at hle
    rcases Nat.lt_or_eq_of_le hle with hlt | rfl
    · rw [hold i (Nat.le_of_lt_succ hlt)]
      exact hlate i h1 (Nat.le_of_lt_succ hlt)
    · rw [hs.unsettled] at hsettled
      cases hsettled
  case apart =>
    intro i j h1 hlt hle
    rw [hs.count] at hle
    have hi : i ≤ s.incidentCount := Nat.le_of_lt_succ (Nat.lt_of_lt_of_le hlt hle)
    rw [hold i hi]
    rcases Nat.lt_or_eq_of_le hle with hj | rfl
    · rw [hold j (Nat.le_of_lt_succ hj)]
      exact h.apart i j h1 hlt (Nat.le_of_lt_succ hj)
    · rw [hs.openedAt]
      exact hlate i h1 hi
  case until_sup =>
    have hsup : (Icc 1 s.incidentCount).sup (fun i => (s'.incidents i).freezeUntil)
        = s.freezeUntil := by
      rw [h.until_sup]
      exact sup_congr rfl fun i hi => by rw [hold i (mem_Icc.mp hi).2]
    have hbefore : s.freezeUntil ≤ m.timestamp := by
      rw [h.until_sup, Finset.sup_le_iff]
      intro i hi
      obtain ⟨h1, hle⟩ := mem_Icc.mp hi
      exact Nat.le_trans (h.until_le i h1 hle) (Nat.le_of_lt (hlate i h1 hle))
    rw [hs.count, Icc_one_succ, sup_insert, hsup, hs.incidentUntil, hs.freezeUntil]
    split
    · exact (Nat.max_eq_right (Nat.zero_le _)).symm
    · exact (Nat.max_eq_left (Nat.le_trans hbefore (Nat.le_add_right _ _))).symm
  case used_eq =>
    have hsum : ∑ i ∈ Icc 1 s.incidentCount,
        ((s'.incidents i).freezeUntil - (s'.incidents i).openedAt) = s.frozenUsed := by
      rw [h.used_eq]
      exact sum_congr rfl fun i hi => by rw [hold i (mem_Icc.mp hi).2]
    rw [hs.count, Icc_one_succ, sum_insert hlast, hsum, hs.incidentUntil, hs.openedAt, hs.frozenUsed]
    split
    · omega
    · omega

theorem exec_keeps_timeline (h : Timeline w.escrow m.timestamp) (hbooks : Books w.escrow)
    (hexec : exec C m c w = .ok w') : Timeline w'.escrow m.timestamp := by
  cases exec_timeline hexec with
  | same hs => exact h.same hs
  | new hs => exact h.new hbooks hs

/-- **RUN**: every reachable world has its windows in order. -/
theorem timeline (h : Reachable C w now) : Timeline w.escrow now := by
  have hboth := Reachable.induct (fun w now => Solvent C w ∧ Timeline w.escrow now)
    (fun token now => ⟨solvent_start token, timeline_initial now⟩)
    (fun w now later ih hle => ⟨ih.1, ih.2.wait hle⟩)
    (fun w now balances allowance gift ih => ⟨solvent_gift ih.1, ih.2⟩)
    (fun w m c w' ih hself hexec =>
      ⟨exec_solvent ih.1 hself hexec, exec_keeps_timeline ih.2 ih.1.books hexec⟩) h
  exact hboth.2

/-! ## The claim window and the owner -/

/-- Nothing but the notice, the reveal grace and the freeze holds back the owner. -/
theorem withdraw_succeeds (h : Solvent C w) (howner : m.sender = C.owner) (hopen : w.escrow.closed = false)
    (hnotice : w.escrow.noticeAt ≠ 0) (hgrace : revealGraceEnd w.escrow ≤ m.timestamp)
    (hfreeze : w.escrow.freezeUntil ≤ m.timestamp) : ∃ w', withdraw C m w = .ok w' := by
  have hreserve : ∃ reserve, withdrawReserve m w.escrow = .ok reserve := by
    rw [withdrawReserve]
    split
    · rw [guarded_of_not hnotice, guarded_of_not (Nat.not_lt.mpr hgrace),
        revertIf_of_not (c := frozen m.timestamp w.escrow) _ (Nat.not_lt.mpr hfreeze), ok_bind,
        sub_ok_iff.mpr ⟨h.books.bountiesPaid_le, rfl⟩, ok_bind]
      exact ⟨_, rfl⟩
    · exact ⟨0, rfl⟩
  obtain ⟨reserve, hreserve⟩ := hreserve
  have hcovered := h.covered
  rw [obligations] at hcovered
  rw [withdraw, guarded_of_not (not_not.mpr howner), guarded_of_not (Bool.eq_false_iff.mp hopen), hreserve, ok_bind]
  generalize hkept : (if w.escrow.bondAccounted < reserve then w.escrow.bondAccounted
    else reserve) = kept
  have hle : kept ≤ w.escrow.bondAccounted := by
    rw [← hkept]
    split
    · exact Nat.le_refl _
    · omega
  dsimp only
  rw [sub_ok_iff.mpr ⟨hle, rfl⟩, ok_bind, payOut_ok_iff.mpr ⟨by omega, rfl⟩, ok_bind]
  exact ⟨_, rfl⟩

/-- The freeze of a fully frozen open incident ends with its claim window. -/
theorem freezeUntil_eq {i : Nat} (hbooks : Books s) (h : Timeline s now) (h1 : 1 ≤ i) (hle : i ≤ s.incidentCount)
    (hfull : (s.incidents i).freezeUntil = (s.incidents i).openedAt + claimWindow)
    (hopen : (s.incidents i).settled = false) : s.freezeUntil = (s.incidents i).claimsCloseAt := by
  obtain rfl := hbooks.last_of_unsettled (Nat.ne_of_gt h1) hle hopen
  rw [h.until_sup]
  refine Nat.le_antisymm ?_ ?_
  · rw [Finset.sup_le_iff]
    intro j hj
    obtain ⟨hj1, hj⟩ := mem_Icc.mp hj
    refine Nat.le_trans (h.until_le j hj1 hj) ?_
    rcases Nat.lt_or_eq_of_le hj with hlt | rfl
    · have hapart := h.apart j s.incidentCount hj1 hlt (Nat.le_refl _)
      have hclose := h.closeAt_eq s.incidentCount h1 (Nat.le_refl _)
      omega
    · exact Nat.le_refl _
  · rw [h.closeAt_eq s.incidentCount h1 hle, ← hfull]
    exact le_sup (f := fun i => (s.incidents i).freezeUntil) (mem_Icc.mpr ⟨h1, hle⟩)

/-- **THE CLAIM WINDOW HOLDS BACK THE OWNER** before its last second; in the last second only
    a missing notice or the reveal grace does. -/
theorem withdraw_blocked_iff {w : World} {now i : Nat} (h : Reachable C w now)
    (hnow : now ≤ m.timestamp) (howner : m.sender = C.owner) (h1 : 1 ≤ i) (hle : i ≤ w.escrow.incidentCount)
    (hfull : (w.escrow.incidents i).freezeUntil = (w.escrow.incidents i).openedAt + claimWindow)
    (hopen : (w.escrow.incidents i).settled = false) (hwindow : m.timestamp ≤ (w.escrow.incidents i).claimsCloseAt) :
    (∀ w', withdraw C m w ≠ .ok w') ↔ w.escrow.closed = true ∨ m.timestamp < (w.escrow.incidents i).claimsCloseAt
        ∨ w.escrow.noticeAt = 0 ∨ m.timestamp < revealGraceEnd w.escrow := by
  have hsolvent := solvent h
  have htimeline := (timeline h).wait hnow
  have hfreeze := freezeUntil_eq hsolvent.books htimeline h1 hle hfull hopen
  constructor
  · intro hblocked
    by_contra hnone
    obtain ⟨hclosed, hnone⟩ := not_or.mp hnone
    obtain ⟨hlast, hnone⟩ := not_or.mp hnone
    obtain ⟨hnotice, hgrace⟩ := not_or.mp hnone
    obtain ⟨w', hw'⟩ := withdraw_succeeds hsolvent howner (eq_false_of_ne_true hclosed) hnotice
      (Nat.not_lt.mp hgrace) (hfreeze ▸ Nat.not_lt.mp hlast)
    exact hblocked w' hw'
  · intro hcase w' hw'
    have hact := htimeline.activated (Nat.ne_of_gt (Nat.lt_of_lt_of_le h1 hle))
    obtain ⟨-, hclosed, reserve, hreserve, -⟩ := withdraw_ok hw'
    obtain ⟨hnotice, hgrace, hfrozen, -⟩ := withdrawReserve_ok hreserve hact
    rcases hcase with hcase | hcase | hcase | hcase
    · rw [hclosed] at hcase
      exact nomatch hcase
    · omega
    · exact hnotice hcase
    · omega

/-- A second earlier the same withdrawal is refused. -/
theorem withdraw_blocked_sample : ¬ ∃ w', withdraw forkContract (forkMsg forkOwner 1802505899) (forkRun forkRevealTxs)
      = .ok w' := by
  have hreach : Reachable forkContract (forkRun forkRevealTxs) 1801296300 :=
    fork_reachable (by decide) (by decide)
  have hfacts : 1 ≤ (forkRun forkRevealTxs).escrow.incidentCount
      ∧ ((forkRun forkRevealTxs).escrow.incidents 1).freezeUntil
        = ((forkRun forkRevealTxs).escrow.incidents 1).openedAt + claimWindow
      ∧ ((forkRun forkRevealTxs).escrow.incidents 1).settled = false
      ∧ ((forkRun forkRevealTxs).escrow.incidents 1).claimsCloseAt = 1802505900 := by
    decide +kernel
  obtain ⟨hcount, hfull, hopen, hclose⟩ := hfacts
  have hiff := withdraw_blocked_iff (m := forkMsg forkOwner 1802505899) hreach (by decide) rfl
    (Nat.le_refl 1) hcount hfull hopen (by rw [hclose]; decide)
  rintro ⟨w', hw'⟩
  exact hiff.mpr (Or.inr (Or.inl (by rw [hclose]; decide))) w' hw'

/-- In the last second of the claim window a refund is still accepted, and the owner may
    close the contract before it. -/
theorem withdraw_in_last_second : Reachable forkContract (forkRun forkRevealTxs) 1802505900
      ∧ ((forkRun forkRevealTxs).escrow.incidents 1).freezeUntil
        = ((forkRun forkRevealTxs).escrow.incidents 1).openedAt + claimWindow
      ∧ ((forkRun forkRevealTxs).escrow.incidents 1).settled = false
      ∧ ((forkRun forkRevealTxs).escrow.incidents 1).claimsCloseAt = 1802505900
      ∧ (∃ w', exec forkContract (forkMsg forkCarol 1802505900)
          (forkRefund forkCarol forkCarolCommitment forkCarolSig) (forkRun forkRevealTxs) = .ok w')
      ∧ ∃ w', withdraw forkContract (forkMsg forkOwner 1802505900) (forkRun forkRevealTxs) = .ok w'
          ∧ w'.escrow.closed = true := by
  have hfacts : ((forkRun forkRevealTxs).escrow.incidents 1).freezeUntil
        = ((forkRun forkRevealTxs).escrow.incidents 1).openedAt + claimWindow
      ∧ ((forkRun forkRevealTxs).escrow.incidents 1).settled = false
      ∧ ((forkRun forkRevealTxs).escrow.incidents 1).claimsCloseAt = 1802505900
      ∧ (exec forkContract (forkMsg forkCarol 1802505900)
          (forkRefund forkCarol forkCarolCommitment forkCarolSig)
          (forkRun forkRevealTxs)).toOption.isSome = true
      ∧ (exec forkContract (forkMsg forkOwner 1802505900) .withdraw
          (forkRun forkRevealTxs)).toOption.isSome = true := by
    decide +kernel
  obtain ⟨hfull, hopen, hclose, hrefund, hwithdraw⟩ := hfacts
  obtain ⟨w', hw'⟩ := exec_of_isSome hwithdraw
  obtain ⟨-, -, reserve, -, -, -, hescrow⟩ := withdraw_ok hw'
  exact ⟨fork_reachable (by decide) (by decide), hfull, hopen, hclose, exec_of_isSome hrefund, w', hw',
    congrArg State.closed hescrow⟩

end EscrowTimeline
