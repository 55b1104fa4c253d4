import Chit402.EscrowRunProofs
import Chit402.TraceProofs
import Mathlib.Data.FinEnum
import Mathlib.Data.Set.Card
import Mathlib.Tactic.IntervalCases

/-! # The commit slots of an address

    An address may have eight commits that are neither revealed nor expired.
    It has eight slots for their hashes; a slot is taken again once its hash
    has no live commit, whoever made that commit.  So a stranger who commits
    an expired hash again occupies the slot of the address it came from, and
    the hash zero, which marks an empty slot, is never counted at all. -/

namespace EscrowCommits

open ExceptFlow Solidity EscrowState EscrowContract EscrowStep EscrowRun Function

variable {C : Contract} {m : Msg}

/-- A commit that is neither revealed nor expired. -/
def Live (now : Nat) (c : Commit) : Prop := c.committer ≠ 0 ∧ ¬ expired now c

instance (now : Nat) (c : Commit) : Decidable (Live now c) := inferInstanceAs (Decidable (_ ∧ _))

variable {payTo who : Address} {i slot : Fin maxOpenCommits} {l : List (Fin maxOpenCommits)}
  {evidenceType later now timestamp : Nat} {s s' : State} {epoch : UInt32} {c hash salt : Word} {w : World}

theorem not_live_iff {c : Commit} : ¬ Live now c ↔ c.committer = 0 ∨ expired now c := by
  rw [Live, not_and_or, not_not, not_not]

theorem not_live_noCommit (now : Nat) : ¬ Live now noCommit := fun h => h.1 rfl

theorem Live.earlier {c : Commit} (h : Live later c) (hle : now ≤ later) : Live now c :=
  ⟨h.1, fun hexpired => h.2 (Nat.lt_of_lt_of_le hexpired hle)⟩

/-- The hashes under which an address has a live commit. -/
def liveCommits (s : State) (now : Nat) (who : Address) : Set Word :=
  {h | Live now (s.commits h) ∧ (s.commits h).committer = who}

/-! ## The scan -/

/-- A slot that the sender may take for `c`. -/
def Free (s : State) (now : Nat) (who : Address) (c : Word) (i : Fin maxOpenCommits) : Prop :=
  s.commitSlots who i = c ∨ s.commitSlots who i = 0 ∨ ¬ Live now (s.commits (s.commitSlots who i))

/-- A slot the scan finds is free, and no slot before it is empty. -/
theorem scanSlots_some {slot : Option (Fin maxOpenCommits)} (h : scanSlots m s c slot l = some i) :
    slot = some i ∨ (Free s m.timestamp m.sender c i
      ∧ ∃ before after, l = before ++ i :: after ∧ ∀ j ∈ before, s.commitSlots m.sender j ≠ 0) := by
  induction l generalizing slot with
  | nil => exact Or.inl h
  | cons j rest ih =>
    have hhead : ∃ before after, j :: rest = before ++ j :: after ∧ ∀ k ∈ before, s.commitSlots m.sender k ≠ 0 :=
      ⟨[], rest, rfl, fun k hk => absurd hk List.not_mem_nil⟩
    rw [scanSlots] at h
    by_cases hc : s.commitSlots m.sender j = c
    · rw [if_pos hc] at h
      cases h
      exact Or.inr ⟨Or.inl hc, hhead⟩
    rw [if_neg hc] at h
    by_cases h0 : s.commitSlots m.sender j = 0
    · rw [if_pos h0] at h
      rcases Option.or_eq_some_iff.mp h with hslot | ⟨-, hj⟩
      · exact Or.inl hslot
      · cases hj
        exact Or.inr ⟨Or.inr (Or.inl h0), hhead⟩
    rw [if_neg h0] at h
    rcases ih h with hslot | ⟨hfree, before, after, rfl, hbefore⟩
    · rcases Option.or_eq_some_iff.mp hslot with hslot | ⟨-, hj⟩
      · exact Or.inl hslot
      · by_cases hdead : (s.commits (s.commitSlots m.sender j)).committer = 0
            ∨ expired m.timestamp (s.commits (s.commitSlots m.sender j))
        · rw [if_pos hdead] at hj
          cases hj
          exact Or.inr ⟨Or.inr (Or.inr (not_live_iff.mpr hdead)), hhead⟩
        · rw [if_neg hdead] at hj
          cases hj
    · refine Or.inr ⟨hfree, j :: before, after, rfl, fun k hk => ?_⟩
      rcases List.mem_cons.mp hk with rfl | hk
      · exact h0
      · exact hbefore k hk

theorem scanSlots_ne_none (l : List (Fin maxOpenCommits)) (k : Fin maxOpenCommits) :
    scanSlots m s c (some k) l ≠ none := by
  induction l with
  | nil => exact Option.some_ne_none k
  | cons j rest ih =>
    rw [scanSlots]
    split
    · exact Option.some_ne_none _
    · split
      · exact Option.some_ne_none _
      · exact ih

/-- A scan finds no slot only past eight hashes with live commits. -/
theorem scanSlots_none {slot : Option (Fin maxOpenCommits)} (h : scanSlots m s c slot l = none) :
    ∀ i ∈ l, ¬ Free s m.timestamp m.sender c i := by
  induction l generalizing slot with
  | nil => exact fun i hi => absurd hi List.not_mem_nil
  | cons j rest ih =>
    rw [scanSlots] at h
    by_cases hc : s.commitSlots m.sender j = c
    · rw [if_pos hc] at h
      cases h
    rw [if_neg hc] at h
    by_cases h0 : s.commitSlots m.sender j = 0
    · rw [if_pos h0] at h
      exact absurd (Option.or_eq_none_iff.mp h).2 (by simp)
    rw [if_neg h0] at h
    by_cases hdead : (s.commits (s.commitSlots m.sender j)).committer = 0
        ∨ expired m.timestamp (s.commits (s.commitSlots m.sender j))
    · simp only [if_pos hdead] at h
      cases slot with
      | none => exact absurd h (scanSlots_ne_none rest j)
      | some k => exact absurd h (scanSlots_ne_none rest k)
    · intro i hi
      rcases List.mem_cons.mp hi with rfl | hrest
      · rintro (hfree | hfree | hfree)
        · exact hc hfree
        · exact h0 hfree
        · exact hdead (not_live_iff.mp hfree)
      · exact ih h i hrest

/-- The hash's own slot is found when no slot before it is empty. -/
theorem scanSlots_own (hzero : c ≠ 0) {slot : Option (Fin maxOpenCommits)} (hown : s.commitSlots m.sender i = c)
    (honly : ∀ j ∈ l, s.commitSlots m.sender j = c → j = i) (hmem : i ∈ l)
    (hfilled : l.Pairwise fun j k => s.commitSlots m.sender k ≠ 0 → s.commitSlots m.sender j ≠ 0) :
    scanSlots m s c slot l = some i := by
  induction l generalizing slot with
  | nil => exact absurd hmem List.not_mem_nil
  | cons j rest ih =>
    rw [scanSlots]
    by_cases hc : s.commitSlots m.sender j = c
    · rw [if_pos hc, honly j List.mem_cons_self hc]
    obtain ⟨hhead, htail⟩ := List.pairwise_cons.mp hfilled
    have hrest : i ∈ rest := by
      rcases List.mem_cons.mp hmem with rfl | hrest
      · exact absurd hown hc
      · exact hrest
    have h0 : s.commitSlots m.sender j ≠ 0 := hhead i hrest (by rw [hown]; exact hzero)
    rw [if_neg hc, if_neg h0]
    exact ih (fun k hk => honly k (List.mem_cons_of_mem _ hk)) hrest htail

/-! ## A commit -/

/-- What a successful commit found and wrote. -/
structure Committed (m : Msg) (c : Word) (slot : Fin maxOpenCommits) (s s' : State) : Prop where
  scanned : scanSlots m s c none (List.finRange maxOpenCommits) = some slot
  fresh : ¬ Live m.timestamp (s.commits c)
  commits : s'.commits = update
    (if s.commitSlots m.sender slot ≠ 0 ∧ s.commitSlots m.sender slot ≠ c then
      update s.commits (s.commitSlots m.sender slot) noCommit else s.commits) c
    { committer := m.sender, madeAt := m.timestamp, seq := s.commitSeq + 1 }
  slots : s'.commitSlots = update s.commitSlots m.sender (update (s.commitSlots m.sender) slot c)
  seq : s'.commitSeq = s.commitSeq + 1

theorem commit_spec (h : commit m c s = .ok s') : ∃ slot, Committed m c slot s s' := by
  rw [commit, guarded_iff, guarded_iff, guarded_iff] at h
  obtain ⟨-, -, hfresh, h⟩ := h
  cases hscan : scanSlots m s c none (List.finRange maxOpenCommits) with
  | none =>
    rw [hscan] at h
    cases h
  | some slot =>
    rw [hscan] at h
    obtain ⟨seq, hseq, h⟩ := bind_iff.mp h
    obtain ⟨-, rfl⟩ := add_ok_iff.mp hseq
    rw [Nat.mod_eq_of_lt m.inRange] at h
    cases h
    exact ⟨slot, hscan, hfresh, rfl, rfl, rfl⟩

theorem Committed.free (h : Committed m c slot s s') : Free s m.timestamp m.sender c slot := by
  rcases scanSlots_some h.scanned with hslot | ⟨hfree, -⟩
  · cases hslot
  · exact hfree

/-- Slots fill in order: none before the one taken is empty. -/
theorem Committed.before (h : Committed m c slot s s') (hlt : i < slot) : s.commitSlots m.sender i ≠ 0 := by
  rcases scanSlots_some h.scanned with hslot | ⟨-, before, after, hsplit, hbefore⟩
  · cases hslot
  · have hmem := List.mem_finRange i
    rw [hsplit] at hmem
    rcases List.mem_append.mp hmem with hmem | hmem
    · exact hbefore i hmem
    · have hsorted := List.pairwise_lt_finRange maxOpenCommits
      rw [hsplit] at hsorted
      have hafter := (List.pairwise_cons.mp (List.pairwise_append.mp hsorted).2.1).1
      rcases List.mem_cons.mp hmem with rfl | hmem
      · exact absurd hlt (lt_irrefl i)
      · exact absurd (hafter i hmem) (lt_asymm hlt)

/-- **A commit leaves every live commit alone**, its own and those of others. -/
theorem Committed.keeps (h : Committed m c slot s s') (hlive : Live m.timestamp (s.commits hash)) :
    s'.commits hash = s.commits hash := by
  have hne : hash ≠ c := by
    intro heq
    exact h.fresh (heq ▸ hlive)
  rw [h.commits, update_of_ne hne]
  by_cases hprev : s.commitSlots m.sender slot ≠ 0 ∧ s.commitSlots m.sender slot ≠ c
  · rw [if_pos hprev]
    refine update_of_ne ?_ _ _
    intro heq
    rcases h.free with hfree | hfree | hfree
    · exact hprev.2 hfree
    · exact hprev.1 hfree
    · exact hfree (heq ▸ hlive)
  · rw [if_neg hprev]

theorem commit_succeeds (hclosed : s.closed = false)
    (hcovered : s.noticeAt ≠ 0 → m.timestamp < s.noticeAt + noticePeriod) (hfresh : ¬ Live m.timestamp (s.commits c))
    (hseq : s.commitSeq + 1 < 2 ^ 48) (hfree : Free s m.timestamp m.sender c i) : ∃ s', commit m c s = .ok s' := by
  have hguard : ¬ ((s.commits c).committer ≠ 0 ∧ ¬ expired m.timestamp (s.commits c)) := hfresh
  rw [commit, guarded_of_not (by simp [hclosed]),
    guarded_of_not (fun h => Nat.not_le.mpr (hcovered h.1) h.2), guarded_of_not hguard]
  cases hscan : scanSlots m s c none (List.finRange maxOpenCommits) with
  | none => exact absurd hfree (scanSlots_none hscan i (List.mem_finRange i))
  | some slot =>
    rw [show add 48 s.commitSeq 1 = .ok (s.commitSeq + 1) from add_ok_iff.mpr ⟨hseq, rfl⟩]
    exact ⟨_, rfl⟩

/-! ## Every other call -/

/-- The commit a reveal consumes, the epoch its evidence is about, and who is to be paid. -/
structure Reveal where
  commitHash : Word
  epoch : UInt32
  payTo : Address

/-- The reveal a call makes, when it is one. -/
def revealOf (C : Contract) (sender : Address) : Call → Option Reveal
  | .revealA h1 s1 h2 s2 payTo salt => some {
      commitHash := commitHash C sender payTo evidenceA (evidenceHashA C h1 s1 h2 s2) salt
      epoch := h1.epoch
      payTo := payTo }
  | .revealB ev payTo salt => some {
      commitHash := commitHash C sender payTo evidenceB (evidenceHashB C ev) salt
      epoch := ev.h1.epoch
      payTo := payTo }
  | _ => none

/-- An accepted reveal used up the sender's own live commit, and recorded its number. -/
structure Accepted (C : Contract) (m : Msg) (r : Reveal) (s s' : State) : Prop where
  live : Live m.timestamp (s.commits r.commitHash)
  own : (s.commits r.commitHash).committer = m.sender
  late : minDelay ≤ m.timestamp
  recorded : ∃ key evidenceType lo hi, record C m key evidenceType r.epoch (s.commits r.commitHash).seq r.payTo lo hi
    { s with commits := update s.commits r.commitHash noCommit } = .ok s'

variable {r : Reveal}

theorem consumeCommit_spec {seq : Nat} {evidenceHash : Word}
    (h : consumeCommit C m payTo evidenceType evidenceHash salt s = .ok (seq, s')) :
    Live m.timestamp (s.commits (commitHash C m.sender payTo evidenceType evidenceHash salt))
      ∧ (s.commits (commitHash C m.sender payTo evidenceType evidenceHash salt)).committer = m.sender
      ∧ minDelay ≤ m.timestamp ∧ seq = (s.commits (commitHash C m.sender payTo evidenceType evidenceHash salt)).seq
      ∧ s' = { s with
          commits := update s.commits (commitHash C m.sender payTo evidenceType evidenceHash salt) noCommit } := by
  rw [consumeCommit, guarded_iff] at h
  obtain ⟨-, h⟩ := h
  rw [guarded_iff, guarded_iff, guarded_iff, guarded_iff] at h
  obtain ⟨hsender, hyoung, hexpired, -, h⟩ := h
  obtain ⟨hpresent, hown⟩ := not_or.mp hsender
  cases h
  exact ⟨⟨hpresent, hexpired⟩, not_not.mp hown, by omega, rfl, rfl⟩

theorem revealA_accepted {h1 h2 : TreeHead} {s1 s2 : Sig} (h : revealA C m h1 s1 h2 s2 payTo salt s = .ok s')
    (hr : revealOf C m.sender (.revealA h1 s1 h2 s2 payTo salt) = some r) : Accepted C m r s s' := by
  cases hr
  rw [revealA, bind_iff] at h
  obtain ⟨⟨seq, mid⟩, hcommit, h⟩ := h
  obtain ⟨hlive, hown, hlate, rfl, rfl⟩ := consumeCommit_spec hcommit
  rw [guarded_iff, bind_iff] at h
  obtain ⟨-, u1, -, h⟩ := h
  obtain ⟨u2, -, h⟩ := bind_iff.mp h
  exact ⟨hlive, hown, hlate, _, _, _, _, h⟩

theorem revealB_accepted {ev : EvidenceB} (h : revealB C m ev payTo salt s = .ok s')
    (hr : revealOf C m.sender (.revealB ev payTo salt) = some r) : Accepted C m r s s' := by
  cases hr
  rw [revealB, bind_iff] at h
  obtain ⟨⟨seq, mid⟩, hcommit, h⟩ := h
  obtain ⟨hlive, hown, hlate, rfl, rfl⟩ := consumeCommit_spec hcommit
  rw [guarded_iff, guarded_iff, bind_iff] at h
  obtain ⟨-, -, u1, -, h⟩ := h
  obtain ⟨u2, -, h⟩ := bind_iff.mp h
  rw [guarded_iff, guarded_iff] at h
  exact ⟨hlive, hown, hlate, _, _, _, _, h.2.2⟩

/-- A call that leaves the commits alone. -/
structure SameCommits (s s' : State) : Prop where
  commits : s'.commits = s.commits
  slots : s'.commitSlots = s.commitSlots
  seq : s'.commitSeq = s.commitSeq

theorem openOrJoin_sameCommits {incidentId : Nat} (h : OpenedOrJoined C m epoch s incidentId s') :
    SameCommits s s' := by
  cases h with
  | opened => exact ⟨rfl, rfl, rfl⟩
  | joined => exact ⟨rfl, rfl, rfl⟩

theorem record_sameCommits {key : Word} {seq : Nat} {lo hi : Word}
    (h : record C m key evidenceType epoch seq payTo lo hi s = .ok s') : SameCommits s s' := by
  obtain ⟨incidentId, s1, hopen, rfl⟩ := record_ok h
  have hsame := openOrJoin_sameCommits hopen
  rw [(noteBounty_frame ..).choose_spec.choose_spec]
  exact ⟨hsame.commits, hsame.slots, hsame.seq⟩

theorem Accepted.slots (h : Accepted C m r s s') : s'.commitSlots = s.commitSlots := by
  obtain ⟨_, _, _, _, hrecord⟩ := h.recorded
  exact (record_sameCommits hrecord).slots

theorem Accepted.commits (h : Accepted C m r s s') : s'.commits = update s.commits r.commitHash noCommit := by
  obtain ⟨_, _, _, _, hrecord⟩ := h.recorded
  exact (record_sameCommits hrecord).commits

theorem Accepted.seq (h : Accepted C m r s s') : s'.commitSeq = s.commitSeq := by
  obtain ⟨_, _, _, _, hrecord⟩ := h.recorded
  exact (record_sameCommits hrecord).seq

/-- **WHAT A CALL DOES TO THE COMMITS**: it makes one, uses one up, or leaves them all. -/
inductive CommitEffect (C : Contract) (m : Msg) : Call → State → State → Prop where
  | committed {c : Word} {slot : Fin maxOpenCommits} {s s' : State} (h : Committed m c slot s s') :
      CommitEffect C m (.commit c) s s'
  | revealed {call : Call} {r : Reveal} {s s' : State} (hr : revealOf C m.sender call = some r)
      (h : Accepted C m r s s') : CommitEffect C m call s s'
  | same {call : Call} {s s' : State} (hr : revealOf C m.sender call = none) (h : SameCommits s s') :
      CommitEffect C m call s s'

theorem revealOf_owner {call : Call} (h : ownerCall call = true) : revealOf C m.sender call = none := by
  cases call with
  | revealA => cases h
  | revealB => cases h
  | _ => rfl

theorem exec_commits {call : Call} {w' : World} (hexec : exec C m call w = .ok w') :
    CommitEffect C m call w.escrow w'.escrow := by
  have h := exec_effect hexec
  generalize w'.escrow = s' at h ⊢
  cases h with
  | owner hcall _ _ => exact .same (revealOf_owner hcall) ⟨rfl, rfl, rfl⟩
  | commit hcall =>
    obtain ⟨slot, hcommit⟩ := commit_spec hcall
    exact .committed hcommit
  | revealA hcall => exact .revealed rfl (revealA_accepted hcall rfl)
  | revealB hcall => exact .revealed rfl (revealB_accepted hcall rfl)
  | finalizeBounty hcall =>
    obtain ⟨-, -, -, pay, -, rfl⟩ := finalizeBounty_ok hcall
    exact .same rfl ⟨rfl, rfl, rfl⟩
  | registerRefund hcall =>
    obtain ⟨-, -, -, -, -, rfl⟩ := registerRefund_ok hcall
    exact .same rfl ⟨rfl, rfl, rfl⟩
  | settle hcall =>
    obtain ⟨-, -, -, -, -, -, rfl⟩ := settle_ok hcall
    exact .same rfl ⟨rfl, rfl, rfl⟩
  | claimRefund => exact .same rfl ⟨rfl, rfl, rfl⟩
  | claim => exact .same rfl ⟨rfl, rfl, rfl⟩

/-! ## The slots of a careful run -/

/-- **The slots of every address**: they fill in order, hold no hash twice and no live commit of
    a stranger, and name every live commit. -/
structure Slotted (s : State) (now : Nat) : Prop where
  filled : ∀ who i j, i < j → s.commitSlots who j ≠ 0 → s.commitSlots who i ≠ 0
  distinct : ∀ who i j, s.commitSlots who i ≠ 0 → s.commitSlots who i = s.commitSlots who j → i = j
  owned : ∀ who i, s.commitSlots who i ≠ 0 → Live now (s.commits (s.commitSlots who i)) →
    (s.commits (s.commitSlots who i)).committer = who
  named : ∀ h, Live now (s.commits h) → h ≠ 0 ∧ ∃ i, s.commitSlots (s.commits h).committer i = h

/-- No hash is zero, and none is taken that a slot of another address still names. -/
def Careful (w : World) (tx : Tx) : Prop :=
  ∀ c, tx.action = .call (.commit c) → c ≠ 0 ∧ ∀ who, who ≠ tx.msg.sender → ∀ i,
    w.escrow.commitSlots who i = c → Live tx.msg.timestamp (w.escrow.commits c)

theorem slotted_initial (now : Nat) : Slotted initial now where
  filled := fun _ _ _ _ h => absurd rfl h
  distinct := fun _ _ _ h => absurd rfl h
  owned := fun _ _ h => absurd rfl h
  named := fun _ h => absurd h (not_live_noCommit now)

theorem Slotted.wait (h : Slotted s now) (hle : now ≤ later) : Slotted s later where
  filled := h.filled
  distinct := h.distinct
  owned := fun who i h0 hlive => h.owned who i h0 (hlive.earlier hle)
  named := fun hash hlive => h.named hash (hlive.earlier hle)

/-- Losing live commits keeps the slots. -/
theorem Slotted.fewer (h : Slotted s now) (hslots : s'.commitSlots = s.commitSlots)
    (hkept : ∀ hash, Live now (s'.commits hash) → s'.commits hash = s.commits hash) : Slotted s' now := by
  constructor
  case filled =>
    rw [hslots]
    exact h.filled
  case distinct =>
    rw [hslots]
    exact h.distinct
  case owned =>
    rw [hslots]
    intro who i h0 hlive
    have hsame := hkept _ hlive
    rw [hsame] at hlive ⊢
    exact h.owned who i h0 hlive
  case named =>
    rw [hslots]
    intro hash hlive
    have hsame := hkept _ hlive
    rw [hsame] at hlive ⊢
    exact h.named hash hlive

/-- A new commit of a hash that no other address's slot names. -/
theorem Slotted.committed (h : Slotted s m.timestamp) (hs : Committed m c slot s s') (hzero : c ≠ 0)
    (hforeign : ∀ who, who ≠ m.sender → ∀ i, s.commitSlots who i ≠ c) : Slotted s' m.timestamp := by
  have hother : ∀ who, who ≠ m.sender → s'.commitSlots who = s.commitSlots who := by
    intro who hwho
    rw [hs.slots, update_of_ne hwho]
  have hmine : s'.commitSlots m.sender = update (s.commitSlots m.sender) slot c := by
    rw [hs.slots, update_self]
  -- the hash stays in its slot when it has one
  have honce : ∀ i, s.commitSlots m.sender i = c → i = slot := by
    intro i hi
    have hown : scanSlots m s c none (List.finRange maxOpenCommits) = some i :=
      scanSlots_own hzero hi
        (fun j _ hj => h.distinct m.sender j i (by rw [hj]; exact hzero) (by rw [hj, hi])) (List.mem_finRange i)
        ((List.pairwise_lt_finRange _).imp fun {j k} hlt => h.filled m.sender j k hlt)
    rw [hs.scanned] at hown
    exact (Option.some.inj hown).symm
  have hkept : ∀ hash, hash ≠ c → Live m.timestamp (s'.commits hash) → s'.commits hash = s.commits hash := by
    intro hash hne hlive
    rw [hs.commits, update_of_ne hne] at hlive ⊢
    split at hlive
    · rename_i hprev
      rw [if_pos hprev]
      by_cases heq : hash = s.commitSlots m.sender slot
      · rw [heq, update_self] at hlive
        exact absurd hlive (not_live_noCommit _)
      · exact update_of_ne heq _ _
    · rename_i hprev
      rw [if_neg hprev]
  constructor
  case filled =>
    intro who i j hlt hj
    by_cases hwho : who = m.sender
    · subst hwho
      rw [hmine] at hj ⊢
      by_cases hi : i = slot
      · rw [hi, update_self]
        exact hzero
      rw [update_of_ne hi]
      by_cases hslot : j = slot
      · exact hs.before (hslot ▸ hlt)
      · rw [update_of_ne hslot] at hj
        exact h.filled _ i j hlt hj
    · rw [hother who hwho] at hj ⊢
      exact h.filled who i j hlt hj
  case distinct =>
    intro who i j h0 heq
    by_cases hwho : who = m.sender
    · subst hwho
      rw [hmine] at h0 heq
      by_cases hi : i = slot
      · by_cases hj : j = slot
        · rw [hi, hj]
        · rw [hi, update_self, update_of_ne hj] at heq
          exact absurd (honce j heq.symm) hj
      · rw [update_of_ne hi] at h0 heq
        by_cases hj : j = slot
        · rw [hj, update_self] at heq
          exact absurd (honce i heq) hi
        · rw [update_of_ne hj] at heq
          exact h.distinct _ i j h0 heq
    · rw [hother who hwho] at h0 heq
      exact h.distinct who i j h0 heq
  case owned =>
    intro who i h0 hlive
    by_cases hc : s'.commitSlots who i = c
    · rw [hc, hs.commits, update_self]
      by_contra hwho
      rw [hother who (Ne.symm hwho)] at hc
      exact hforeign who (Ne.symm hwho) i hc
    · have hsame := hkept _ hc hlive
      rw [hsame] at hlive ⊢
      by_cases hwho : who = m.sender
      · subst hwho
        rw [hmine] at h0 hc hlive ⊢
        by_cases hi : i = slot
        · rw [hi, update_self] at hc
          exact absurd rfl hc
        · rw [update_of_ne hi] at h0 hlive ⊢
          exact h.owned _ i h0 hlive
      · rw [hother who hwho] at h0 hlive ⊢
        exact h.owned who i h0 hlive
  case named =>
    intro hash hlive
    by_cases hc : hash = c
    · subst hc
      refine ⟨hzero, slot, ?_⟩
      rw [hs.commits, update_self, hmine, update_self]
    · have hsame := hkept hash hc hlive
      rw [hsame] at hlive ⊢
      obtain ⟨hhash, i, hi⟩ := h.named hash hlive
      refine ⟨hhash, i, ?_⟩
      by_cases hwho : (s.commits hash).committer = m.sender
      · rw [hwho] at hi ⊢
        have hne : i ≠ slot := by
          rintro rfl
          rcases hs.free with hfree | hfree | hfree
          · exact hc (hi.symm.trans hfree)
          · exact hhash (hi.symm.trans hfree)
          · exact hfree (by rw [hi]; exact hlive)
        rw [hmine, update_of_ne hne]
        exact hi
      · rw [hother _ hwho]
        exact hi

/-- **STEP**: a careful transaction keeps the slots. -/
theorem step_slotted {tx : Tx} (h : Slotted w.escrow tx.msg.timestamp) (hcareful : Careful w tx) :
    Slotted (EscrowStep.step C w tx).escrow tx.msg.timestamp := by
  rcases step_cases C w tx with hsame | ⟨call, haction, -, hexec⟩
  · rwa [hsame]
  · have heffect := exec_commits hexec
    generalize (EscrowStep.step C w tx).escrow = s' at heffect ⊢
    cases heffect with
    | committed hcommit =>
      obtain ⟨hzero, hforeign⟩ := hcareful _ haction
      exact h.committed hcommit hzero fun who hwho i hi => hcommit.fresh (hforeign who hwho i hi)
    | @revealed _ r _ _ _ hreveal =>
      refine h.fewer hreveal.slots fun hash hlive => ?_
      rw [hreveal.commits] at hlive ⊢
      by_cases hc : hash = r.commitHash
      · rw [hc, update_self] at hlive
        exact absurd hlive (not_live_noCommit _)
      · exact update_of_ne hc _ _
    | same _ hrest => exact h.fewer hrest.slots fun hash _ => by rw [hrest.commits]

/-- **RUN**: the slots of every reachable state of a careful run. -/
theorem run_slotted (h : Slotted w.escrow now) {txs : List Tx} (ht : Timely txs)
    (hcareful : Trace.Along (EscrowStep.step C) Careful w txs) (hfirst : ∀ tx ∈ txs, now ≤ tx.msg.timestamp)
    (hlast : ∀ tx ∈ txs, tx.msg.timestamp ≤ later) (hle : now ≤ later) : Slotted (run C w txs).escrow later := by
  induction txs generalizing w now with
  | nil => exact h.wait hle
  | cons tx txs ih =>
    obtain ⟨hhead, htail⟩ := List.pairwise_cons.mp ht
    have hstep := step_slotted (C := C) (h.wait (hfirst tx List.mem_cons_self)) hcareful.1
    exact ih hstep htail hcareful.2 hhead (fun tx' hmem => hlast tx' (List.mem_cons_of_mem _ hmem))
      (hlast tx List.mem_cons_self)

/-! ## Eight commits for every address -/

theorem Slotted.card_le (h : Slotted s now) (who : Address) : (liveCommits s now who).ncard ≤ maxOpenCommits := by
  have hsub : liveCommits s now who ⊆ ↑(Finset.univ.image (s.commitSlots who)) := by
    rintro hash ⟨hlive, rfl⟩
    obtain ⟨-, i, hi⟩ := h.named hash hlive
    rw [Finset.coe_image]
    exact ⟨i, Finset.mem_coe.mpr (Finset.mem_univ i), hi⟩
  calc (liveCommits s now who).ncard
      ≤ (Finset.univ.image (s.commitSlots who)).card := by
        rw [← Set.ncard_coe_finset]
        exact Set.ncard_le_ncard hsub (Finset.finite_toSet _)
    _ ≤ (Finset.univ : Finset (Fin maxOpenCommits)).card := Finset.card_image_le
    _ = maxOpenCommits := Finset.card_fin _

/-- An address with fewer than eight live commits has a slot to take. -/
theorem Slotted.free (h : Slotted s now) (hfew : (liveCommits s now who).ncard < maxOpenCommits) (c : Word) :
    ∃ i, Free s now who c i := by
  by_contra hnone
  rw [not_exists] at hnone
  have hslot : ∀ i, s.commitSlots who i ≠ 0 ∧ Live now (s.commits (s.commitSlots who i)) := by
    intro i
    obtain ⟨-, hrest⟩ := not_or.mp (hnone i)
    obtain ⟨h0, hdead⟩ := not_or.mp hrest
    exact ⟨h0, not_not.mp hdead⟩
  have hinj : Function.Injective (s.commitSlots who) := fun i j heq => h.distinct who i j (hslot i).1 heq
  have hsub : ↑(Finset.univ.image (s.commitSlots who)) ⊆ liveCommits s now who := by
    rw [Finset.coe_image]
    rintro hash ⟨i, -, rfl⟩
    exact ⟨(hslot i).2, h.owned who i (hslot i).1 (hslot i).2⟩
  have hcard := Set.ncard_le_ncard hsub (Set.toFinite _)
  rw [Set.ncard_coe_finset, Finset.card_image_of_injective _ hinj, Finset.card_fin] at hcard
  exact absurd hfew (Nat.not_lt.mpr hcard)

/-- **COMMIT SLOTS ARE PER ADDRESS** in every run in which no commit has the hash zero, and none
    takes a hash that a slot of another address names without a live commit.  An address with
    fewer than eight live commits can commit, a commit touches no live commit, and no address has
    more than eight.  Sequence numbers are `uint48`. -/
theorem commit_slots_per_address (C : Contract) (token : Token) {txs : List Tx} (ht : Timely txs)
    (hcareful : Trace.Along (EscrowStep.step C) Careful (start C token) txs) (m : Msg)
    (hlast : ∀ tx ∈ txs, tx.msg.timestamp ≤ m.timestamp) (c : Word) :
    let s := (run C (start C token) txs).escrow
    (s.closed = false → (s.noticeAt ≠ 0 → m.timestamp < s.noticeAt + noticePeriod) →
        ¬ Live m.timestamp (s.commits c) → s.commitSeq + 1 < 2 ^ 48 →
        (liveCommits s m.timestamp m.sender).ncard < maxOpenCommits → ∃ s', commit m c s = .ok s')
      ∧ (∀ s', commit m c s = .ok s' → ∀ hash, Live m.timestamp (s.commits hash) →
        s'.commits hash = s.commits hash)
      ∧ ∀ who, (liveCommits s m.timestamp who).ncard ≤ maxOpenCommits := by
  intro s
  have hslots : Slotted s m.timestamp :=
    run_slotted (slotted_initial 0) ht hcareful (fun _ _ => Nat.zero_le _) hlast (Nat.zero_le _)
  refine ⟨?_, ?_, hslots.card_le⟩
  · intro hclosed hcovered hfresh hseq hfew
    obtain ⟨i, hfree⟩ := hslots.free hfew c
    exact commit_succeeds hclosed hcovered hfresh hseq hfree
  · intro s' hcommit hash hlive
    obtain ⟨slot, hcommitted⟩ := commit_spec hcommit
    exact hcommitted.keeps hlive

def aliceTxs : List Tx := [forkTx forkAlice 1801296000 (.commit forkCommit)]

/-- Her second one goes through. -/
theorem commit_slots_per_address_alice :
    ∃ s', commit (forkMsg forkAlice 1801296001) 5 (forkRun aliceTxs).escrow = .ok s' := by
  have hcareful : Trace.Along (EscrowStep.step forkContract) Careful (start forkContract forkToken) aliceTxs := by
    refine ⟨?_, trivial⟩
    rintro c hc
    obtain rfl := Call.commit.inj (Action.call.inj hc)
    exact ⟨by decide, fun who _ i hi => absurd hi (show (0 : Word) ≠ forkCommit by decide)⟩
  have hfew : (liveCommits (forkRun aliceTxs).escrow 1801296001 forkAlice).ncard < maxOpenCommits := by
    have hone : liveCommits (forkRun aliceTxs).escrow 1801296001 forkAlice ⊆ {forkCommit} := by
      rintro hash ⟨hlive, -⟩
      by_contra hne
      have hrecord : (forkRun aliceTxs).escrow.commits hash = noCommit := update_of_ne hne _ initial.commits
      rw [hrecord] at hlive
      exact not_live_noCommit _ hlive
    have hcard := Set.ncard_le_ncard hone (Set.toFinite _)
    rw [Set.ncard_singleton] at hcard
    exact Nat.lt_of_le_of_lt hcard (by decide)
  exact (commit_slots_per_address forkContract forkToken (by decide) hcareful (forkMsg forkAlice 1801296001)
    (by decide) 5).1 rfl (fun h => absurd rfl h) (by decide) (by decide) hfew

/-! ## Slots taken by strangers -/

/-- Hashes 1 to 8, committed one after the other. -/
def eightCommits (who : Address) (timestamp : Fin (2 ^ 48)) : List Tx :=
  (List.range 8).map fun i => forkTx who timestamp (.commit (uintWord (1 + i)))

def eightRecords (who : Address) (timestamp seq : Nat) (commits : Word → Commit) : Word → Commit :=
  (List.range 8).foldl (fun records i => update records (uintWord (1 + i)) ⟨who, timestamp, seq + i⟩) commits

/-- Alice's eight commits expire, and Carol commits the same hashes again. -/
def takenTxs : List Tx := eightCommits forkAlice 1000 ++ eightCommits forkCarol 87701

/-- Alice commits to the hash zero and to eight more. -/
def zeroTxs : List Tx := forkTx forkAlice 1000 (.commit 0) :: eightCommits forkAlice 1000

theorem eightRecords_self {seq : Nat} {commits : Word → Commit} {i : Nat} (hi : i ∈ List.range 8) :
    eightRecords who timestamp seq commits (uintWord (1 + i)) = ⟨who, timestamp, seq + i⟩ := by
  rw [List.mem_range] at hi
  interval_cases i <;> rfl

theorem eightRecords_of_ne {seq : Nat} {commits : Word → Commit} (hne : ∀ i ∈ List.range 8, hash ≠ uintWord (1 + i)) :
    eightRecords who timestamp seq commits hash = commits hash := by
  unfold eightRecords
  generalize List.range 8 = l at hne
  induction l generalizing commits with
  | nil => rfl
  | cons i rest ih =>
    rw [List.foldl_cons, ih fun j hj => hne j (List.mem_cons_of_mem _ hj)]
    exact update_of_ne (hne i List.mem_cons_self) _ _

/-- After Carol's commits no live one is Alice's. -/
theorem taken_none : liveCommits (forkRun takenTxs).escrow 87701 forkAlice = ∅ := by
  rw [Set.eq_empty_iff_forall_notMem]
  rintro hash ⟨hlive, hwho⟩
  have hcommits : (forkRun takenTxs).escrow.commits
      = eightRecords forkCarol 87701 9 (eightRecords forkAlice 1000 1 initial.commits) := rfl
  rw [hcommits] at hlive hwho
  by_cases hmem : ∃ i ∈ List.range 8, hash = uintWord (1 + i)
  · obtain ⟨i, hi, rfl⟩ := hmem
    rw [eightRecords_self hi] at hwho
    exact absurd hwho (show forkCarol ≠ forkAlice by decide)
  · have hne : ∀ i ∈ List.range 8, hash ≠ uintWord (1 + i) := fun i hi heq => hmem ⟨i, hi, heq⟩
    rw [eightRecords_of_ne hne, eightRecords_of_ne hne] at hlive
    exact not_live_noCommit _ hlive

theorem zero_nine : maxOpenCommits < (liveCommits (forkRun zeroTxs).escrow 1000 forkAlice).ncard := by
  have hsub : ↑((Finset.range 9).image uintWord) ⊆ liveCommits (forkRun zeroTxs).escrow 1000 forkAlice := by
    have hall : ∀ i ∈ List.range 9, Live 1000 ((forkRun zeroTxs).escrow.commits (uintWord i))
        ∧ ((forkRun zeroTxs).escrow.commits (uintWord i)).committer = forkAlice := by decide
    rw [Finset.coe_image]
    rintro hash ⟨i, hi, rfl⟩
    exact hall i (List.mem_range.mpr (Finset.mem_range.mp hi))
  calc maxOpenCommits < ((Finset.range 9).image uintWord).card := by decide
    _ = (↑((Finset.range 9).image uintWord) : Set Word).ncard := (Set.ncard_coe_finset _).symm
    _ ≤ _ := Set.ncard_le_ncard hsub (Set.toFinite _)

/-- **Slots are not per address**: Alice, with no live commit at all, is refused a fresh hash; and
    with the hash zero she has more than eight. -/
theorem slots_not_per_address : (Reachable forkContract (forkRun takenTxs) 87701
      ∧ (forkRun takenTxs).escrow.closed = false ∧ (forkRun takenTxs).escrow.noticeAt = 0
      ∧ ¬ Live 87701 ((forkRun takenTxs).escrow.commits 9)
      ∧ (liveCommits (forkRun takenTxs).escrow 87701 forkAlice).ncard = 0
      ∧ commit (forkMsg forkAlice 87701) 9 (forkRun takenTxs).escrow = .error .tooManyOpenCommits)
    ∧ (Reachable forkContract (forkRun zeroTxs) 1000
      ∧ maxOpenCommits < (liveCommits (forkRun zeroTxs).escrow 1000 forkAlice).ncard) := by
  constructor
  · refine ⟨fork_reachable (by decide) (by decide), rfl, rfl, by decide, ?_, rfl⟩
    rw [taken_none, Set.ncard_empty]
  · exact ⟨fork_reachable (by decide) (by decide), zero_nine⟩

end EscrowCommits
