import Chit402.BookEscrowProofs

/-! # Interleaved runs over one escrow store

    Release and clawback read the status, wait, and then write it, so what
    they write depends on what happened meanwhile.  Below: what one piece
    writes, the machine whose steps are the pieces of any number of calls,
    and what its runs keep while every write finds the escrow as its call
    left it. -/

namespace BookEscrowRuns

open OrderedMap BookEscrow

variable {host : Host} {out : Outside} {s s' : BookEscrowStore}

/-! ## The store -/

/-- Records stand under their own id, and an open one is its task's index entry. -/
structure Indexed (s : BookEscrowStore) : Prop where
  keyed : ∀ id e, s.get id = some e → e.escrowId = id
  open_ : ∀ id e, s.get id = some e → e.status = .open → s.byTask.lookup e.taskId = some id

theorem get_put (s : BookEscrowStore) (e : Escrow) (id : String) :
    (s.put e).get id = if id = e.escrowId then some e else s.get id :=
  lookup_set s.escrows e.escrowId id e

theorem get_insert (s : BookEscrowStore) (e : Escrow) (id : String) :
    (s.insert e).get id = if id = e.escrowId then some e else s.get id :=
  lookup_set s.escrows e.escrowId id e

theorem indexed_empty : Indexed ⟨∅, ∅⟩ :=
  ⟨fun id _ h => (nomatch (AList.lookup_empty id).symm.trans h),
    fun id _ h => (nomatch (AList.lookup_empty id).symm.trans h)⟩

/-! ## What one piece writes -/

/-- The write leaves status, close reason and refund instruction as they are. -/
def Repeats (e e' : Escrow) : Prop :=
  e'.status = e.status ∧ e'.closeReason = e.closeReason ∧ e'.refundInstruction = e.refundInstruction

def IsRefund : Option RefundInstruction → Prop
  | some (.ledgerAdjudication ..) => True
  | some .stand | some .pending | none => False

/-- The write issues a refund instruction. -/
def Issues (e e' : Escrow) : Prop := IsRefund e'.refundInstruction ∧ e'.refundInstruction ≠ e.refundInstruction

/-- No escrow of the task has been released. -/
def Unreleased (s : BookEscrowStore) (taskId : String) : Prop :=
  ∀ e ∈ values s.escrows, e.taskId = taskId → e.status ≠ .released

instance (s : BookEscrowStore) (taskId : String) : Decidable (Unreleased s taskId) :=
  inferInstanceAs (Decidable (∀ e ∈ values s.escrows, _))

variable {e e' : Escrow} {input : EscrowInput} {id : String}

theorem Unreleased.get {taskId : String} (h : Unreleased s taskId) (hget : s.get id = some e)
    (htask : e.taskId = taskId) : e.status ≠ .released :=
  h e ((mem_values_iff _ _).mpr ⟨id, hget⟩) htask

/-- What a release is verified with, as a function of the escrow. -/
abbrev Inputs := Escrow → Option (Option LedgerEntry × Option Receipt)

/-- The three ways to close a record. -/
inductive Closing (host : Host) (out : Outside) (inputs : Inputs) (e : Escrow) : Escrow → Prop where
  | expired : Closing host out inputs e (markExpired host out.now e)
  | released (entry : Option LedgerEntry) (receipt : Option Receipt) (checks : Checks)
      (hinputs : inputs e = some (entry, receipt))
      (hok : (verifyEscrowRelease host out.settlementProofEnabled e receipt entry).ok = true) :
      Closing host out inputs e (markReleased host out.now checks e)
  | clawedBack (claimType : String) (answer : DisputeResult) :
      Closing host out inputs e (markClawedBack host out.now claimType answer e)

theorem Closing.same_key {inputs : Inputs} (h : Closing host out inputs e e') :
    e'.escrowId = e.escrowId ∧ e'.taskId = e.taskId := by
  cases h with
  | expired | released | clawedBack => exact ⟨rfl, rfl⟩

theorem Closing.not_open {inputs : Inputs} (h : Closing host out inputs e e') : e'.status ≠ .open := by
  cases h with
  | expired | released | clawedBack => exact fun h => nomatch h

/-- The record is still open for this write, or the write repeats how it was closed. -/
def Allowed (host : Host) (now : ℤ) (s : BookEscrowStore) (e e' : Escrow) : Prop :=
  (e.status = .open ∧ (e'.status = .released → ¬ PastExpiry host now e) ∧ (Issues e e' → Unreleased s e.taskId))
    ∨ Repeats e e'

/-- Nothing, a new record for a task without an open one, or one record closed. `opens` says of which tasks. -/
inductive Wrote (host : Host) (out : Outside) (inputs : Inputs) (opens : String → Prop) (s : BookEscrowStore) :
    BookEscrowStore → Prop where
  | same : Wrote host out inputs opens s s
  | opened (e : Escrow) (hopen : e.status = .open) (hid : e.escrowId = "escrow-" ++ out.randomHex)
      (hopens : opens e.taskId) (hfree : ∀ e', s.getByTask e.taskId = some e' → e'.status ≠ .open) :
      Wrote host out inputs opens s (s.insert e)
  | closed (e e' : Escrow) (hget : s.get e.escrowId = some e) (hclosing : Closing host out inputs e e')
      (hallowed : Allowed host out.now s e e') : Wrote host out inputs opens s (s.put e')

section Wrote

variable {inputs : Inputs} {opens : String → Prop}

/-- A piece keeps the index. -/
theorem Wrote.indexed (h : Wrote host out inputs opens s s') (hi : Indexed s) : Indexed s' := by
  cases h with
  | same => exact hi
  | opened e hopen hid hopens hfree =>
    constructor
    · intro id e0 hget
      rw [get_insert] at hget
      split at hget
      · rw [← Option.some.inj hget]
        exact ‹id = e.escrowId›.symm
      · exact hi.keyed id e0 hget
    · intro id e0 hget hopen0
      show (s.byTask.set e.taskId e.escrowId).lookup e0.taskId = some id
      rw [get_insert] at hget
      rw [lookup_set]
      split at hget
      · rw [← Option.some.inj hget, if_pos rfl, ‹id = e.escrowId›]
      · -- another open record of the task would have been found by its index
        have hold := hi.open_ id e0 hget hopen0
        rw [if_neg, hold]
        intro htask
        have hfound : s.getByTask e.taskId = some e0 := by
          rw [BookEscrowStore.getByTask, ← htask, hold]
          exact hget
        exact hfree e0 hfound hopen0
  | closed e e' hget hclosing hallowed =>
    have hkey := hclosing.same_key
    constructor
    · intro id e0 hget0
      rw [get_put] at hget0
      split at hget0
      · rw [← Option.some.inj hget0]
        exact ‹id = e'.escrowId›.symm
      · exact hi.keyed id e0 hget0
    · intro id e0 hget0 hopen0
      rw [get_put] at hget0
      split at hget0
      · rw [← Option.some.inj hget0] at hopen0
        exact absurd hopen0 hclosing.not_open
      · exact hi.open_ id e0 hget0 hopen0

/-- A closed record stays as it was closed, where the id of a new one is new. -/
theorem Wrote.keeps_closed (h : Wrote host out inputs opens s s') (hfresh : s.get ("escrow-" ++ out.randomHex) = none)
    (hget : s.get id = some e) (hclosed : e.status ≠ .open) :
    ∃ e', s'.get id = some e' ∧ e'.taskId = e.taskId ∧ Repeats e e' := by
  cases h with
  | same => exact ⟨e, hget, rfl, rfl, rfl, rfl⟩
  | opened e0 hopen hid hopens hfree =>
    refine ⟨e, ?_, rfl, rfl, rfl, rfl⟩
    rw [get_insert, if_neg]
    · exact hget
    · intro heq
      rw [heq, hid, hfresh] at hget
      cases hget
  | closed e0 e0' hget0 hclosing hallowed =>
    have hkey := hclosing.same_key
    rw [get_put]
    split_ifs with heq
    · have hsame : e0 = e := by
        rw [heq, hkey.1, hget0] at hget
        exact Option.some.inj hget
      subst hsame
      rcases hallowed with ⟨hopen, -, -⟩ | hrepeats
      · exact absurd hopen hclosed
      · exact ⟨e0', rfl, hkey.2, hrepeats⟩
    · exact ⟨e, hget, rfl, rfl, rfl, rfl⟩

/-- A record becomes released only when open, in time and verified. -/
theorem Wrote.releases (h : Wrote host out inputs opens s s') (hget' : s'.get id = some e')
    (hreleased : e'.status = .released) (hbefore : ∀ e, s.get id = some e → e.status ≠ .released) :
    ∃ e entry receipt, s.get id = some e ∧ e.status = .open ∧ ¬ PastExpiry host out.now e
      ∧ inputs e = some (entry, receipt)
      ∧ (verifyEscrowRelease host out.settlementProofEnabled e receipt entry).ok = true := by
  cases h with
  | same => exact absurd hreleased (hbefore e' hget')
  | opened e hopen hid hopens hfree =>
    rw [get_insert] at hget'
    split at hget'
    · rw [← Option.some.inj hget', hopen] at hreleased
      cases hreleased
    · exact absurd hreleased (hbefore e' hget')
  | closed e e0 hget hclosing hallowed =>
    rw [get_put] at hget'
    split at hget'
    · rename_i hid
      cases hget'
      rw [hclosing.same_key.1] at hid
      rw [← hid] at hget
      have hwas : e.status ≠ .released := hbefore e hget
      rcases hallowed with ⟨hopen, hpast, -⟩ | ⟨hsame, -, -⟩
      · cases hclosing with
        | expired => cases hreleased
        | released entry receipt checks hinputs hok =>
          exact ⟨e, entry, receipt, hget, hopen, hpast hreleased, hinputs, hok⟩
        | clawedBack => cases hreleased
      · exact absurd (hsame.symm.trans hreleased) hwas
    · exact absurd hreleased (hbefore e' hget')

/-- A refund instruction is issued only while no escrow of the task has been released. -/
theorem Wrote.issues (h : Wrote host out inputs opens s s') (hfresh : s.get ("escrow-" ++ out.randomHex) = none)
    (hget : s.get id = some e) (hget' : s'.get id = some e') (hissues : Issues e e') : Unreleased s e'.taskId := by
  cases h with
  | same =>
    cases hget.symm.trans hget'
    exact absurd rfl hissues.2
  | opened e0 hopen hid hopens hfree =>
    rw [get_insert] at hget'
    split at hget'
    · rename_i heq
      rw [heq, hid, hfresh] at hget
      cases hget
    · cases hget.symm.trans hget'
      exact absurd rfl hissues.2
  | closed e0 e0' hget0 hclosing hallowed =>
    rw [get_put] at hget'
    split at hget'
    · rename_i heq
      cases hget'
      rw [heq, hclosing.same_key.1, hget0] at hget
      cases hget
      rw [hclosing.same_key.2]
      rcases hallowed with ⟨-, -, hrefund⟩ | ⟨-, -, hsame⟩
      · exact hrefund hissues
      · exact absurd hsame hissues.2
    · cases hget.symm.trans hget'
      exact absurd rfl hissues.2

/-- While no record of a task is opened after a release, none is open after one. -/
theorem Wrote.unreleased (h : Wrote host out inputs opens s s') (hi : Indexed s)
    (hopens : ∀ taskId, opens taskId → Unreleased s taskId)
    (hu : ∀ id e, s.get id = some e → e.status = .open → Unreleased s e.taskId) (hget : s'.get id = some e)
    (hopen : e.status = .open) : Unreleased s' e.taskId := by
  cases h with
  | same => exact hu id e hget hopen
  | opened e0 hopen0 hid htask hfree =>
    have hbefore : Unreleased s e.taskId := by
      rw [get_insert] at hget
      split at hget
      · cases hget
        exact hopens _ htask
      · exact hu id e hget hopen
    intro e1 hmem htask1
    obtain ⟨id1, hget1⟩ := (mem_values_iff _ _).mp hmem
    have hget1 : (s.insert e0).get id1 = some e1 := hget1
    rw [get_insert] at hget1
    split at hget1
    · cases hget1
      rw [hopen0]
      exact nofun
    · exact hbefore.get hget1 htask1
  | closed e0 e0' hget0 hclosing hallowed =>
    have hkey := hclosing.same_key
    rw [get_put] at hget
    split at hget
    · cases hget
      exact absurd hopen hclosing.not_open
    rename_i hid
    have hbefore := hu id e hget hopen
    intro e1 hmem htask1
    obtain ⟨id1, hget1⟩ := (mem_values_iff _ _).mp hmem
    have hget1 : (s.put e0').get id1 = some e1 := hget1
    rw [get_put] at hget1
    split at hget1
    · cases hget1
      have htask0 : e0.taskId = e.taskId := hkey.2.symm.trans htask1
      rcases hallowed with ⟨hopen0, -, -⟩ | ⟨hsame, -, -⟩
      · -- two open records of one task are the same record
        have hindex := hi.open_ id e hget hopen
        rw [← htask0, hi.open_ _ e0 hget0 hopen0, ← hkey.1] at hindex
        exact absurd (Option.some.inj hindex).symm hid
      · rw [hsame]
        exact hbefore.get hget0 htask0
    · exact hbefore.get hget1 htask1

end Wrote

/-! ## The pieces -/

theorem touchExpiry_cases (host : Host) (now : ℤ) (e : Escrow) :
    (e.status = .open ∧ PastExpiry host now e ∧ touchExpiry host now e = (markExpired host now e, true))
      ∨ (¬ (e.status = .open ∧ PastExpiry host now e) ∧ touchExpiry host now e = (e, false)) := by
  by_cases h : e.status = .open ∧ PastExpiry host now e
  · exact .inl ⟨h.1, h.2, if_pos h⟩
  · exact .inr ⟨h, if_neg h⟩

theorem wrote_expired {inputs : Inputs} {opens : String → Prop} (hget : s.get e.escrowId = some e)
    (hopen : e.status = .open) :
    Wrote host out inputs opens s (s.put (markExpired host out.now e)) :=
  .closed e _ hget .expired (.inl ⟨hopen, fun h => (nomatch h), fun h => absurd rfl h.2⟩)

/-- What a release needs of the record it closes. -/
def Releasable (host : Host) (now : ℤ) (e : Escrow) : Prop :=
  (e.status = .open ∧ ¬ PastExpiry host now e) ∨ (e.status = .released ∧ e.closeReason = some "principal_release")

/-- What a clawback needs of the record it closes and of the others of its task. -/
def Clawable (s : BookEscrowStore) (claimType : String) (answer : DisputeResult) (e : Escrow) : Prop :=
  (e.status = .open ∧ (IsRefund (instructionOf answer) → Unreleased s e.taskId))
    ∨ (e.status = .clawedBack ∧ e.closeReason = some ("clawback:" ++ claimType)
      ∧ e.refundInstruction = instructionOf answer)

theorem release_wrote {inputs : Inputs} {opens : String → Prop} {entry : Option LedgerEntry} {receipt : Option Receipt}
    (hget : s.get e.escrowId = some e) (hinputs : inputs e = some (entry, receipt))
    (hreleasable : (verifyEscrowRelease host out.settlementProofEnabled e receipt entry).ok = true →
      Releasable host out.now e) : Wrote host out inputs opens s (release host out e entry receipt s).1 := by
  rw [release]
  dsimp only
  split
  · exact .same
  · rename_i hok
    have hok := Bool.eq_true_of_not_eq_false hok
    refine .closed e _ hget (.released entry receipt _ hinputs hok) ?_
    rcases hreleasable hok with ⟨hopen, hpast⟩ | ⟨hstatus, hreason⟩
    · exact .inl ⟨hopen, fun _ => hpast, fun h => absurd rfl h.2⟩
    · exact .inr ⟨hstatus.symm, hreason.symm, rfl⟩

theorem clawBack_wrote {inputs : Inputs} {opens : String → Prop} {claimType : String} {answer : DisputeResult}
    (hget : s.get e.escrowId = some e) (hclawable : Clawable s claimType answer e) :
    Wrote host out inputs opens s (clawBack host out e claimType answer s).1 := by
  refine .closed e _ hget (.clawedBack claimType answer) ?_
  rcases hclawable with ⟨hopen, hrefund⟩ | ⟨hstatus, hreason, hinstruction⟩
  · exact .inl ⟨hopen, fun h => (nomatch h), fun h => hrefund h.1⟩
  · exact .inr ⟨hstatus.symm, hreason.symm, hinstruction.symm⟩

theorem checkOpen_ok (h : checkOpen host out input s = .ok e) :
    e.status = .open ∧ e.escrowId = "escrow-" ++ out.randomHex ∧ e.taskId = input.taskId
      ∧ ∀ e', s.getByTask e.taskId = some e' → e'.status ≠ .open := by
  rw [checkOpen] at h
  iterate 4
    split at h
    · cases h
  split at h
  · cases h
  rename_i hfree
  split at h
  · cases h
  iterate 3
    split at h
    · cases h
  split at h
  · cases h
  cases h
  refine ⟨rfl, rfl, rfl, ?_⟩
  intro e' hget hopen
  apply hfree
  show ((s.getByTask input.taskId).filter fun e => e.status = .open).isSome = true
  rw [show s.getByTask input.taskId = some e' from hget, Option.filter_some, if_pos (decide_eq_true hopen)]
  rfl

/-- The record a call names: by its id, or as its task's. -/
def Names (s : BookEscrowStore) (input : EscrowInput) (id : String) : Prop :=
  (input.escrowId ≠ "" ∧ input.escrowId = id) ∨ (input.escrowId = "" ∧ s.byTask.lookup input.taskId = some id)

instance (s : BookEscrowStore) (input : EscrowInput) (id : String) : Decidable (Names s input id) :=
  inferInstanceAs (Decidable (_ ∨ _))

theorem find_ok (h : find input s = .ok e) : ∃ id, s.get id = some e ∧ Names s input id := by
  rw [find] at h
  split at h
  · cases h
  · rename_i id hfound
    split at h
    · cases h
    · rename_i e' hget
      cases h
      refine ⟨id, (Option.filter_eq_some_iff.mp hget).1, ?_⟩
      split at hfound
      · rename_i hid
        cases hfound
        exact .inl ⟨hid, rfl⟩
      · rename_i hid
        split at hfound
        · exact .inr ⟨not_not.mp hid, hfound⟩
        · cases hfound

theorem shown_ok (h : ((if input.escrowId ≠ "" then s.get input.escrowId else s.getByTask input.taskId).filter
    fun e => input.agentId = some e.agentId) = some e) : ∃ id, s.get id = some e ∧ Names s input id := by
  have hsome := (Option.filter_eq_some_iff.mp h).1
  split at hsome
  · rename_i hid
    exact ⟨_, hsome, .inl ⟨hid, rfl⟩⟩
  · rename_i hid
    obtain ⟨id, hindex, hget⟩ := Option.bind_eq_some_iff.mp hsome
    exact ⟨id, hget, .inr ⟨not_not.mp hid, hindex⟩⟩

theorem showEscrow_wrote {inputs : Inputs} {opens : String → Prop} (hi : Indexed s) (input : EscrowInput) :
    Wrote host out inputs opens s (showEscrow host out input s).1 := by
  rw [showEscrow]
  split
  · exact .same
  · dsimp only
    split
    · exact .same
    · rename_i e hfound
      obtain ⟨id, hget, -⟩ := shown_ok hfound
      have hown : s.get e.escrowId = some e := by rw [hi.keyed id e hget, hget]
      rcases touchExpiry_cases host out.now e with ⟨hopen, -, htouch⟩ | ⟨-, htouch⟩
      · rw [htouch, if_pos rfl]
        exact wrote_expired hown hopen
      · rw [htouch, if_neg Bool.false_ne_true]
        exact .same

theorem openEscrow_wrote {inputs : Inputs} {opens : String → Prop} (input : EscrowInput) (hopens : opens input.taskId) :
    Wrote host out inputs opens s (openEscrow host out input s).1 := by
  rw [openEscrow]
  split
  · exact .same
  · rename_i e hok
    obtain ⟨hopen, hid, htask, hfree⟩ := checkOpen_ok hok
    exact .opened e hopen hid (htask ▸ hopens) hfree

/-- A release without a loader is verified in one piece with its checks. -/
def callInputs (out : Outside) : Inputs := fun e => some (out.findByTask e.taskId, none)

theorem startClose_wrote {opens : String → Prop} (hi : Indexed s) (input : EscrowInput) (releasing : Bool) :
    Wrote host out (callInputs out) opens s (startClose host out input releasing s).1 := by
  rw [startClose]
  split
  · exact .same
  · rename_i e hfind
    obtain ⟨id, hget, -⟩ := find_ok hfind
    have hown : s.get e.escrowId = some e := by rw [hi.keyed id e hget, hget]
    dsimp only
    rcases touchExpiry_cases host out.now e with ⟨hopen, -, htouch⟩ | ⟨hnot, htouch⟩
    · rw [htouch, if_pos rfl]
      exact wrote_expired hown hopen
    · rw [htouch, if_neg Bool.false_ne_true]
      split
      · exact .same
      · rename_i hopen
        have hopen := not_not.mp hopen
        split
        · split
          · exact .same
          · exact release_wrote hown rfl fun _ => .inl ⟨hopen, fun hpast => hnot ⟨hopen, hpast⟩⟩
        · split
          · exact .same
          · exact .same

theorem runEscrowAction_wrote {opens : String → Prop} (hi : Indexed s) (action : EscrowAction) (input : EscrowInput)
    (hopens : action = .open → opens input.taskId) :
    Wrote host out (callInputs out) opens s (runEscrowAction host out action input s).1 := by
  cases action with
  | status => exact showEscrow_wrote hi input
  | «open» => exact openEscrow_wrote input (hopens rfl)
  | release => exact startClose_wrote hi input true
  | clawback => exact startClose_wrote hi input false

/-- The task a call asks to open an escrow for. -/
def Opens (host : Host) (input : EscrowInput) (taskId : String) : Prop :=
  parseAction (host.toLowerCase input.action) = some .open ∧ taskId = input.taskId

theorem handleEscrowAction_wrote (hi : Indexed s) (input : EscrowInput) :
    Wrote host out (callInputs out) (Opens host input) s (handleEscrowAction host out input s).1 := by
  rw [handleEscrowAction]
  split
  · exact .same
  · rename_i action haction
    refine runEscrowAction_wrote hi _ input ?_
    rintro rfl
    exact ⟨haction, rfl⟩

/-! ## The machine -/

/-- A call that waits. -/
inductive Await where
  | receipt (escrowId : String) (entry : Option LedgerEntry)
  | dispute (escrowId claimType : String)

def awaited : Turn → List Await
  | .loadingReceipt escrowId entry => [.receipt escrowId entry]
  | .adjudicating escrowId claimType => [.dispute escrowId claimType]
  | .replied _ | .threw _ => []

structure World where
  store : BookEscrowStore
  pending : List Await
  now : ℤ

/-- A new call, or the answer to the one that waits at place `k`. -/
inductive Event where
  | call (out : Outside) (input : EscrowInput)
  | receiptLoaded (k : ℕ) (out : Outside) (receipt : Option Receipt)
  | adjudicated (k : ℕ) (out : Outside) (answer : Except String DisputeResult)

def Event.outside : Event → Outside
  | .call out _ | .receiptLoaded _ out _ | .adjudicated _ out _ => out

/-- The piece an event runs, and the calls that go on waiting. -/
def piece (host : Host) (w : World) : Event → (BookEscrowStore × Turn) × List Await
  | .call out input => (handleEscrowAction host out input w.store, w.pending)
  | .receiptLoaded k out receipt =>
    match w.pending[k]? with
    | some (.receipt escrowId entry) => (afterReceipt host out escrowId entry receipt w.store, w.pending.eraseIdx k)
    | some (.dispute ..) | none => ((w.store, .threw "nothing waits there"), w.pending)
  | .adjudicated k out answer =>
    match w.pending[k]? with
    | some (.dispute escrowId claimType) =>
      (afterDispute host out escrowId claimType answer w.store, w.pending.eraseIdx k)
    | some (.receipt ..) | none => ((w.store, .threw "nothing waits there"), w.pending)

/-- The clock does not go back, and random ids do not repeat. -/
def Enabled (w : World) (ev : Event) : Prop :=
  w.now ≤ ev.outside.now ∧ w.store.get ("escrow-" ++ ev.outside.randomHex) = none

instance (w : World) (ev : Event) : Decidable (Enabled w ev) := inferInstanceAs (Decidable (_ ∧ _))

/-- One piece; an event that cannot happen changes nothing. -/
def step (host : Host) (w : World) (ev : Event) : World :=
  if Enabled w ev then
    let p := piece host w ev
    ⟨p.1.1, p.2 ++ awaited p.1.2, ev.outside.now⟩
  else w

/-- What a release at this event is verified with. -/
def inputsOf (w : World) : Event → Inputs
  | .call out _ => callInputs out
  | .receiptLoaded k _ receipt => fun _ =>
    match w.pending[k]? with
    | some (.receipt _ entry) => some (entry, receipt)
    | some (.dispute ..) | none => none
  | .adjudicated .. => fun _ => none

def opensOf (host : Host) : Event → String → Prop
  | .call _ input => Opens host input
  | .receiptLoaded .. | .adjudicated .. => fun _ => False

/-- The release that waits finds its record as it needs it, once its receipt is there. -/
def ReadyToRelease (host : Host) (out : Outside) (receipt : Option Receipt) (s : BookEscrowStore) : Await → Prop
  | .receipt escrowId entry => ∀ e ∈ s.get escrowId,
    (verifyEscrowRelease host out.settlementProofEnabled e receipt entry).ok = true → Releasable host out.now e
  | .dispute .. => True

/-- So does the clawback that waits, once its adjudication has answered. -/
def ReadyToClawBack (answer : Except String DisputeResult) (s : BookEscrowStore) : Await → Prop
  | .dispute escrowId claimType => ∀ result ∈ answer.toOption, ∀ e ∈ s.get escrowId, Clawable s claimType result e
  | .receipt .. => True

/-- Saves succeed, and a call that waited finds its record as it needs it. -/
def Undisturbed (host : Host) (w : World) (ev : Event) : Prop :=
  ev.outside.saved = true ∧
    match ev with
    | .call .. => True
    | .receiptLoaded k out receipt => ∀ a ∈ w.pending[k]?, ReadyToRelease host out receipt w.store a
    | .adjudicated k _ answer => ∀ a ∈ w.pending[k]?, ReadyToClawBack answer w.store a

variable {ev : Event} {w : World}

theorem piece_wrote (hi : Indexed w.store) (hu : Undisturbed host w ev) :
    Wrote host ev.outside (inputsOf w ev) (opensOf host ev) w.store (piece host w ev).1.1 := by
  cases ev with
  | call out input => exact handleEscrowAction_wrote hi input
  | receiptLoaded k out receipt =>
    rw [piece]
    split
    · rename_i escrowId entry hk
      rw [afterReceipt]
      split
      · exact .same
      · rename_i e hget
        have hown : w.store.get e.escrowId = some e := by rw [hi.keyed escrowId e hget, hget]
        refine release_wrote hown ?_ (hu.2 _ hk e hget)
        rw [inputsOf, hk]
    · exact .same
    · exact .same
  | adjudicated k out answer =>
    rw [piece]
    split
    · rename_i escrowId claimType hk
      cases answer with
      | error message => exact .same
      | ok result =>
        rw [afterDispute]
        split
        · exact .same
        · rename_i e hget
          have hown : w.store.get e.escrowId = some e := by rw [hi.keyed escrowId e hget, hget]
          exact clawBack_wrote hown (hu.2 _ hk result rfl e hget)
    · exact .same
    · exact .same

theorem step_wrote (hi : Indexed w.store) (hu : Undisturbed host w ev) :
    Wrote host ev.outside (inputsOf w ev) (opensOf host ev) w.store (step host w ev).store := by
  rw [step]
  split
  · exact piece_wrote hi hu
  · exact .same

/-! ## Failed saves -/

/-- A piece that throws has left the store alone. -/
def FailsClean (s : BookEscrowStore) (x : BookEscrowStore × Turn) : Prop := ∀ message, x.2 = .threw message → x.1 = s

theorem failsClean_replied (s' : BookEscrowStore) (r : Reply) : FailsClean s (s', .replied r) :=
  fun _ h => nomatch h

theorem failsClean_same (t : Turn) : FailsClean s (s, t) := fun _ _ => rfl

section

variable (hsaved : out.saved = true)
include hsaved

theorem failsClean_save (s' : BookEscrowStore) (r : Reply) : FailsClean s (s', save out r) := by
  rw [save, if_pos hsaved]
  exact failsClean_replied s' r

theorem release_failsClean (e : Escrow) (entry : Option LedgerEntry)
    (receipt : Option Receipt) : FailsClean s (release host out e entry receipt s) := by
  rw [release]
  dsimp only
  split
  · exact failsClean_same _
  · exact failsClean_save hsaved _ _

theorem showEscrow_failsClean (input : EscrowInput) : FailsClean s (showEscrow host out input s) := by
  rw [showEscrow]
  split
  · exact failsClean_same _
  · dsimp only
    split
    · exact failsClean_same _
    · split
      · exact failsClean_save hsaved _ _
      · exact failsClean_same _

theorem openEscrow_failsClean (input : EscrowInput) : FailsClean s (openEscrow host out input s) := by
  rw [openEscrow]
  split
  · exact failsClean_same _
  · exact failsClean_save hsaved _ _

theorem startClose_failsClean (input : EscrowInput) (releasing : Bool) :
    FailsClean s (startClose host out input releasing s) := by
  rw [startClose]
  split
  · exact failsClean_same _
  · dsimp only
    split
    · exact failsClean_save hsaved _ _
    split
    · exact failsClean_same _
    split
    · split
      · exact failsClean_same _
      · exact release_failsClean hsaved _ _ _
    · split <;> exact failsClean_same _

theorem runEscrowAction_failsClean (action : EscrowAction) (input : EscrowInput) :
    FailsClean s (runEscrowAction host out action input s) := by
  cases action with
  | status => exact showEscrow_failsClean hsaved input
  | «open» => exact openEscrow_failsClean hsaved input
  | release => exact startClose_failsClean hsaved input true
  | clawback => exact startClose_failsClean hsaved input false

theorem handleEscrowAction_failsClean (input : EscrowInput) : FailsClean s (handleEscrowAction host out input s) := by
  rw [handleEscrowAction]
  split
  · exact failsClean_same _
  · exact runEscrowAction_failsClean hsaved _ input

theorem afterReceipt_failsClean (escrowId : String) (entry : Option LedgerEntry)
    (receipt : Option Receipt) : FailsClean s (afterReceipt host out escrowId entry receipt s) := by
  rw [afterReceipt]
  split
  · exact failsClean_same _
  · exact release_failsClean hsaved _ _ _

theorem afterDispute_failsClean (escrowId claimType : String)
    (answer : Except String DisputeResult) : FailsClean s (afterDispute host out escrowId claimType answer s) := by
  cases answer with
  | error message => exact failsClean_same _
  | ok result =>
    rw [afterDispute]
    split
    · exact failsClean_same _
    · exact failsClean_save hsaved _ _

end

theorem piece_failsClean (hsaved : ev.outside.saved = true) : FailsClean w.store (piece host w ev).1 := by
  cases ev with
  | call out input => exact handleEscrowAction_failsClean hsaved input
  | receiptLoaded k out receipt =>
    rw [piece]
    split
    · exact afterReceipt_failsClean hsaved _ _ _
    · exact failsClean_same _
    · exact failsClean_same _
  | adjudicated k out answer =>
    rw [piece]
    split
    · exact afterDispute_failsClean hsaved _ _ _
    · exact failsClean_same _
    · exact failsClean_same _

end BookEscrowRuns
