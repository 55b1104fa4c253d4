import Chit402.BookEscrowRunsProofs

/-! # Book escrows close once

    What the runs over one escrow store promise, and that they keep it when
    no save fails and every call that waited finds its record as it needs
    it.  It does when nobody else is let in: while a call waits on a record,
    none that names it begins.  A release and a clawback that wait together
    close one record twice. -/

namespace BookEscrowOnce

open Trace BookEscrow BookEscrowRuns

variable {host : Host} {w : World} {ev : Event} {evs : List Event}

/-- A record becomes released only when open, in time and verified. -/
def ReleasesChecked (host : Host) (w : World) (ev : Event) : Prop :=
  ∀ id e', (step host w ev).store.get id = some e' → e'.status = .released →
    (∀ e, w.store.get id = some e → e.status ≠ .released) →
    ∃ e entry receipt, w.store.get id = some e ∧ e.status = .open ∧ ¬ PastExpiry host ev.outside.now e
      ∧ inputsOf w ev e = some (entry, receipt)
      ∧ (verifyEscrowRelease host ev.outside.settlementProofEnabled e receipt entry).ok = true

def ReleasesTask (host : Host) (w : World) (ev : Event) (taskId : String) : Prop :=
  ∃ id e', (step host w ev).store.get id = some e' ∧ e'.status = .released ∧ e'.taskId = taskId

def RefundsTask (host : Host) (w : World) (ev : Event) (taskId : String) : Prop :=
  ∃ id e e', w.store.get id = some e ∧ (step host w ev).store.get id = some e' ∧ Issues e e' ∧ e'.taskId = taskId

/-- The five promises, over a whole run. -/
structure ClosesOnce (host : Host) (w : World) (evs : List Event) : Prop where
  final : ∀ xs ys zs, evs = xs ++ ys ++ zs → ∀ id e, (run (step host) w xs).store.get id = some e → e.status ≠ .open →
    ∃ e', (run (step host) w (xs ++ ys)).store.get id = some e' ∧ e'.taskId = e.taskId ∧ Repeats e e'
  checked : ∀ xs ev ys, evs = xs ++ ev :: ys → ReleasesChecked host (run (step host) w xs) ev
  indexed : ∀ xs ys, evs = xs ++ ys → Indexed (run (step host) w xs).store
  settled : ∀ xs ev ys ev' zs, evs = xs ++ ev :: (ys ++ ev' :: zs) → ∀ taskId,
    ReleasesTask host (run (step host) w xs) ev taskId →
    ¬ RefundsTask host (run (step host) w (xs ++ ev :: ys)) ev' taskId
  persisted : ∀ xs ev ys, evs = xs ++ ev :: ys →
    FailsClean (run (step host) w xs).store (piece host (run (step host) w xs) ev).1

/-! ## One step -/

theorem step_indexed (hu : Undisturbed host w ev) (hi : Indexed w.store) : Indexed (step host w ev).store :=
  (step_wrote hi hu).indexed hi

variable {e : Escrow} {id : String}

theorem step_keeps_closed (hu : Undisturbed host w ev) (hi : Indexed w.store) (hget : w.store.get id = some e)
    (hclosed : e.status ≠ .open) :
    ∃ e', (step host w ev).store.get id = some e' ∧ e'.taskId = e.taskId ∧ Repeats e e' := by
  by_cases henabled : Enabled w ev
  · exact (step_wrote hi hu).keeps_closed henabled.2 hget hclosed
  · rw [step, if_neg henabled]
    exact ⟨e, hget, rfl, rfl, rfl, rfl⟩

theorem step_releases_checked (hu : Undisturbed host w ev) (hi : Indexed w.store) : ReleasesChecked host w ev := by
  intro id e' hget' hreleased hbefore
  exact (step_wrote hi hu).releases hget' hreleased hbefore

theorem step_issues (hu : Undisturbed host w ev) (hi : Indexed w.store) {taskId : String}
    (hrefunds : RefundsTask host w ev taskId) : Unreleased w.store taskId := by
  obtain ⟨id, e, e', hget, hget', hissues, rfl⟩ := hrefunds
  by_cases henabled : Enabled w ev
  · exact (step_wrote hi hu).issues henabled.2 hget hget' hissues
  · rw [step, if_neg henabled] at hget'
    cases hget.symm.trans hget'
    exact absurd rfl hissues.2

/-! ## Runs -/

theorem run_indexed (hu : Along (step host) (Undisturbed host) w evs) (hi : Indexed w.store) :
    Indexed (run (step host) w evs).store :=
  hu.keeps (fun w => Indexed w.store) hi fun _ _ hstep => step_indexed hstep

theorem run_keeps_closed (hu : Along (step host) (Undisturbed host) w evs) (hi : Indexed w.store)
    (hget : w.store.get id = some e) (hclosed : e.status ≠ .open) :
    ∃ e', (run (step host) w evs).store.get id = some e' ∧ e'.taskId = e.taskId ∧ Repeats e e' := by
  induction evs generalizing w e with
  | nil => exact ⟨e, hget, rfl, rfl, rfl, rfl⟩
  | cons ev rest ih =>
    obtain ⟨e1, hget1, htask1, hstatus1, hreason1, hrefund1⟩ := step_keeps_closed hu.1 hi hget hclosed
    have hclosed1 : e1.status ≠ .open := by rw [hstatus1]; exact hclosed
    obtain ⟨e2, hget2, htask2, hstatus2, hreason2, hrefund2⟩ := ih hu.2 (step_indexed hu.1 hi) hget1 hclosed1
    exact ⟨e2, hget2, htask2.trans htask1, hstatus2.trans hstatus1, hreason2.trans hreason1, hrefund2.trans hrefund1⟩

/-- Undisturbed runs over an indexed store keep all five promises. -/
theorem closesOnce_of_undisturbed (hi : Indexed w.store) (hu : Along (step host) (Undisturbed host) w evs) :
    ClosesOnce host w evs := by
  have hsplits : ∀ {xs ys}, evs = xs ++ ys → Along (step host) (Undisturbed host) w xs
      ∧ Along (step host) (Undisturbed host) (run (step host) w xs) ys ∧ Indexed (run (step host) w xs).store := by
    intro xs ys hsplit
    rw [hsplit] at hu
    obtain ⟨hxs, hys⟩ := along_append.mp hu
    exact ⟨hxs, hys, run_indexed hxs hi⟩
  constructor
  case final =>
    intro xs ys zs hsplit id e hget hclosed
    rw [List.append_assoc] at hsplit
    obtain ⟨-, hrest, hindexed⟩ := hsplits hsplit
    rw [run_append]
    exact run_keeps_closed (along_append.mp hrest).1 hindexed hget hclosed
  case checked =>
    intro xs ev ys hsplit
    obtain ⟨-, hrest, hindexed⟩ := hsplits hsplit
    exact step_releases_checked hrest.1 hindexed
  case indexed =>
    intro xs ys hsplit
    exact (hsplits hsplit).2.2
  case settled =>
    intro xs ev ys ev' zs hsplit taskId hreleases hrefunds
    obtain ⟨-, hrest, hindexed⟩ := hsplits hsplit
    obtain ⟨hys, hlast⟩ := along_append.mp hrest.2
    rw [run_append, run_cons] at hrefunds
    have hindexed' := step_indexed hrest.1 hindexed
    -- the released record is still there when the refund is written
    obtain ⟨id, e, hget, hreleased, htask⟩ := hreleases
    have hclosed : e.status ≠ .open := by rw [hreleased]; exact fun h => nomatch h
    obtain ⟨e', hget', htask', hstatus, -, -⟩ := run_keeps_closed hys hindexed' hget hclosed
    exact (step_issues hlast.1 (run_indexed hys hindexed') hrefunds).get hget' (htask'.trans htask)
      (hstatus.trans hreleased)
  case persisted =>
    intro xs ev ys hsplit
    obtain ⟨-, hrest, -⟩ := hsplits hsplit
    exact piece_failsClean hrest.1.1

/-! ## One call at a time -/

def Await.escrowId : Await → String
  | .receipt escrowId _ | .dispute escrowId _ => escrowId

/-- The records are in order: an open one has no released one beside it, and each
    call that waits does so on an open record of its own. -/
structure InOrder (w : World) : Prop where
  indexed : Indexed w.store
  unreleased : ∀ id e, w.store.get id = some e → e.status = .open → Unreleased w.store e.taskId
  waiting : ∀ a ∈ w.pending, ∃ e, w.store.get (Await.escrowId a) = some e ∧ e.status = .open
  apart : (w.pending.map Await.escrowId).Nodup

/-- A release whose receipt is accepted is answered before its escrow expires. -/
def AnswersInTime (host : Host) (out : Outside) (receipt : Option Receipt) (s : BookEscrowStore) : Await → Prop
  | .receipt escrowId entry => ∀ e ∈ s.get escrowId,
    (verifyEscrowRelease host out.settlementProofEnabled e receipt entry).ok = true → ¬ PastExpiry host out.now e
  | .dispute .. => True

instance (out : Outside) (receipt : Option Receipt) (s : BookEscrowStore) :
    ∀ a, Decidable (AnswersInTime host out receipt s a)
  | .receipt .. => inferInstanceAs (Decidable (∀ e ∈ s.get _, _))
  | .dispute .. => .isTrue trivial

/-- **The condition on one event.** Saves succeed. A call names no escrow another call waits on, and opens none
    for a task that has a released one. -/
def InTurn (host : Host) (w : World) (ev : Event) : Prop :=
  ev.outside.saved = true ∧
    match ev with
    | .call _ input => (∀ a ∈ w.pending, ¬ Names w.store input (Await.escrowId a))
      ∧ (parseAction (host.toLowerCase input.action) = some .open → Unreleased w.store input.taskId)
    | .receiptLoaded k out receipt => ∀ a ∈ w.pending[k]?, AnswersInTime host out receipt w.store a
    | .adjudicated .. => True

instance (w : World) : ∀ ev, Decidable (InTurn host w ev)
  | .call _ input => inferInstanceAs (Decidable (_ ∧ (∀ a ∈ w.pending, ¬ Names w.store input (Await.escrowId a))
      ∧ (_ → Unreleased w.store input.taskId)))
  | .receiptLoaded k .. => inferInstanceAs (Decidable (_ ∧ ∀ a ∈ w.pending[k]?, _))
  | .adjudicated .. => inferInstanceAs (Decidable (_ ∧ True))

/-- A call that waited in turn finds its record as it needs it. -/
theorem undisturbed_of_inTurn (h : InOrder w) (ht : InTurn host w ev) : Undisturbed host w ev := by
  refine ⟨ht.1, ?_⟩
  cases ev with
  | call out input => trivial
  | receiptLoaded k out receipt =>
    intro a ha
    have htime := ht.2 a ha
    cases a with
    | receipt escrowId entry =>
      intro e hget hok
      obtain ⟨e', hget', hopen⟩ := h.waiting _ (List.mem_of_getElem? ha)
      cases hget.symm.trans hget'
      exact .inl ⟨hopen, htime e hget hok⟩
    | dispute escrowId claimType => trivial
  | adjudicated k out answer =>
    intro a ha
    cases a with
    | receipt escrowId entry => trivial
    | dispute escrowId claimType =>
      intro result _ e hget
      obtain ⟨e', hget', hopen⟩ := h.waiting _ (List.mem_of_getElem? ha)
      cases hget.symm.trans hget'
      exact .inl ⟨hopen, fun _ => h.unreleased _ e hget hopen⟩

section Leaves

variable {out : Outside} {s : BookEscrowStore} {input : EscrowInput} {named : String → Prop} {e : Escrow}

/-- What a piece leaves to the calls that wait: the records it does not name; and a call that begins to wait
    does so on an open record that it names. -/
structure Leaves (named : String → Prop) (s : BookEscrowStore) (x : BookEscrowStore × Turn) : Prop where
  kept : ∀ id e, ¬ named id → s.get id = some e → x.1.get id = some e
  waits : ∀ a ∈ awaited x.2, named (Await.escrowId a) ∧ ∃ e, x.1.get (Await.escrowId a) = some e ∧ e.status = .open

theorem leaves_same {t : Turn} (ht : awaited t = []) : Leaves named s (s, t) := by
  refine ⟨fun _ _ _ hget => hget, ?_⟩
  rw [ht]
  nofun

theorem leaves_put {t : Turn} (ht : awaited t = []) (hnamed : named e.escrowId) : Leaves named s (s.put e, t) := by
  refine ⟨?_, ?_⟩
  · intro id e' hid hget
    rw [get_put, if_neg]
    · exact hget
    · rintro rfl
      exact hid hnamed
  · rw [ht]
    nofun

theorem leaves_waits {t : Turn} {a : Await} (ht : awaited t = [a]) (hnamed : named (Await.escrowId a))
    (hget : s.get (Await.escrowId a) = some e) (hopen : e.status = .open) : Leaves named s (s, t) := by
  refine ⟨fun _ _ _ hget => hget, ?_⟩
  rw [ht]
  intro a' ha'
  rw [List.mem_singleton.mp ha']
  exact ⟨hnamed, e, hget, hopen⟩

theorem awaited_save (out : Outside) (reply : Reply) : awaited (save out reply) = [] := by
  rw [save]
  split <;> rfl

theorem release_leaves {entry : Option LedgerEntry} {receipt : Option Receipt} (hnamed : named e.escrowId) :
    Leaves named s (release host out e entry receipt s) := by
  rw [release]
  dsimp only
  split
  · exact leaves_same rfl
  · exact leaves_put (awaited_save ..) hnamed

theorem showEscrow_leaves (hi : Indexed s) : Leaves (Names s input) s (showEscrow host out input s) := by
  rw [showEscrow]
  split
  · exact leaves_same rfl
  · dsimp only
    split
    · exact leaves_same rfl
    · rename_i e hfound
      obtain ⟨id, hget, hnames⟩ := shown_ok hfound
      rw [← hi.keyed id e hget] at hnames
      rcases touchExpiry_cases host out.now e with ⟨-, -, htouch⟩ | ⟨-, htouch⟩
      · rw [htouch, if_pos rfl]
        exact leaves_put (awaited_save ..) hnames
      · rw [htouch, if_neg Bool.false_ne_true]
        exact leaves_same rfl

theorem openEscrow_leaves (hfresh : s.get ("escrow-" ++ out.randomHex) = none) :
    Leaves named s (openEscrow host out input s) := by
  rw [openEscrow]
  split
  · exact leaves_same rfl
  · rename_i e hok
    obtain ⟨-, hid, -⟩ := checkOpen_ok hok
    refine ⟨?_, ?_⟩
    · intro id e' _ hget
      rw [get_insert, if_neg]
      · exact hget
      · rintro rfl
        rw [hid, hfresh] at hget
        cases hget
    · rw [awaited_save]
      exact fun _ ha => absurd ha List.not_mem_nil

theorem startClose_leaves (hi : Indexed s) (releasing : Bool) :
    Leaves (Names s input) s (startClose host out input releasing s) := by
  rw [startClose]
  split
  · exact leaves_same rfl
  · rename_i e hfind
    obtain ⟨id, hget, hnames⟩ := find_ok hfind
    have hown : s.get e.escrowId = some e := by rw [hi.keyed id e hget, hget]
    rw [← hi.keyed id e hget] at hnames
    dsimp only
    rcases touchExpiry_cases host out.now e with ⟨-, -, htouch⟩ | ⟨-, htouch⟩
    · rw [htouch, if_pos rfl]
      exact leaves_put (awaited_save ..) hnames
    · rw [htouch, if_neg Bool.false_ne_true]
      split
      · exact leaves_same rfl
      · rename_i hopen
        have hopen := not_not.mp hopen
        split
        · split
          · exact leaves_waits rfl hnames hown hopen
          · exact release_leaves hnames
        · split
          · exact leaves_same rfl
          · exact leaves_waits rfl hnames hown hopen

theorem handleEscrowAction_leaves (hi : Indexed s) (hfresh : s.get ("escrow-" ++ out.randomHex) = none) :
    Leaves (Names s input) s (handleEscrowAction host out input s) := by
  rw [handleEscrowAction]
  split
  · exact leaves_same rfl
  · rename_i action _
    cases action with
    | status => exact showEscrow_leaves hi
    | «open» => exact openEscrow_leaves hfresh
    | release => exact startClose_leaves hi true
    | clawback => exact startClose_leaves hi false

theorem afterReceipt_leaves (hi : Indexed s) (escrowId : String) (entry : Option LedgerEntry)
    (receipt : Option Receipt) : Leaves (· = escrowId) s (afterReceipt host out escrowId entry receipt s) := by
  rw [afterReceipt]
  split
  · exact leaves_same rfl
  · rename_i e hget
    exact release_leaves (hi.keyed escrowId e hget)

theorem afterDispute_leaves (hi : Indexed s) (escrowId claimType : String) (answer : Except String DisputeResult) :
    Leaves (· = escrowId) s (afterDispute host out escrowId claimType answer s) := by
  cases answer with
  | error message => exact leaves_same rfl
  | ok result =>
    rw [afterDispute]
    split
    · exact leaves_same rfl
    · rename_i e hget
      exact leaves_put (awaited_save ..) (hi.keyed escrowId e hget)

end Leaves

/-- The calls that go on waiting after a piece, where none of them waits on what the piece names. -/
theorem waiting_apart {named : String → Prop} {s : BookEscrowStore} {x : BookEscrowStore × Turn} {rest : List Await}
    (h : Leaves named s x) (hrest : ∀ a ∈ rest, ¬ named (Await.escrowId a)
      ∧ ∃ e, s.get (Await.escrowId a) = some e ∧ e.status = .open) (hapart : (rest.map Await.escrowId).Nodup) :
    (∀ a ∈ rest ++ awaited x.2, ∃ e, x.1.get (Await.escrowId a) = some e ∧ e.status = .open)
      ∧ ((rest ++ awaited x.2).map Await.escrowId).Nodup := by
  constructor
  · intro a ha
    rcases List.mem_append.mp ha with hold | hnew
    · obtain ⟨hnamed, e, hget, hopen⟩ := hrest a hold
      exact ⟨e, h.kept _ e hnamed hget, hopen⟩
    · exact (h.waits a hnew).2
  · rw [List.map_append]
    refine List.nodup_append.mpr ⟨hapart, ?_, ?_⟩
    · cases x.2 with
      | replied | threw => exact List.nodup_nil
      | loadingReceipt | adjudicating => exact List.nodup_singleton _
    · intro id hold id' hnew heq
      obtain ⟨a, ha, rfl⟩ := List.mem_map.mp hold
      obtain ⟨a', ha', rfl⟩ := List.mem_map.mp hnew
      refine (hrest a ha).1 ?_
      rw [heq]
      exact (h.waits a' ha').1

/-- The others wait on other records than the call that is answered. -/
theorem rest_apart (h : InOrder w) {k : ℕ} {a : Await} (hk : w.pending[k]? = some a) :
    (∀ a' ∈ w.pending.eraseIdx k, ¬ Await.escrowId a' = Await.escrowId a
      ∧ ∃ e, w.store.get (Await.escrowId a') = some e ∧ e.status = .open)
      ∧ ((w.pending.eraseIdx k).map Await.escrowId).Nodup := by
  refine ⟨?_, ?_⟩
  · intro a' ha'
    refine ⟨?_, h.waiting a' (List.mem_of_mem_eraseIdx ha')⟩
    intro heq
    obtain ⟨i, hik, hi⟩ := List.mem_eraseIdx_iff_getElem?.mp ha'
    have hlt : i < (w.pending.map Await.escrowId).length := by
      rw [List.length_map]
      exact (List.getElem?_eq_some_iff.mp hi).1
    refine hik ((List.getElem?_inj hlt h.apart).mp ?_)
    rw [List.getElem?_map, List.getElem?_map, hi, hk, Option.map_some, Option.map_some, heq]
  · exact h.apart.sublist ((List.eraseIdx_sublist ..).map _)

/-- **STEP**: events in turn keep the records in order. -/
theorem step_inOrder (h : InOrder w) (ht : InTurn host w ev) : InOrder (step host w ev) := by
  have hu := undisturbed_of_inTurn h ht
  by_cases henabled : Enabled w ev
  · have hwaits : (∀ a ∈ (step host w ev).pending, ∃ e, (step host w ev).store.get (Await.escrowId a) = some e
        ∧ e.status = .open) ∧ ((step host w ev).pending.map Await.escrowId).Nodup := by
      have hsame : ∀ {t : Turn}, awaited t = [] → (∀ a ∈ w.pending ++ awaited t, ∃ e,
          w.store.get (Await.escrowId a) = some e ∧ e.status = .open)
          ∧ ((w.pending ++ awaited t).map Await.escrowId).Nodup := by
        intro t ht
        rw [ht, List.append_nil]
        exact ⟨h.waiting, h.apart⟩
      rw [step, if_pos henabled]
      cases ev with
      | call out input =>
        exact waiting_apart (handleEscrowAction_leaves h.indexed henabled.2)
          (fun a ha => ⟨ht.2.1 a ha, h.waiting a ha⟩) h.apart
      | receiptLoaded k out receipt =>
        rw [piece]
        split
        · rename_i escrowId entry hk
          obtain ⟨hrest, hapart⟩ := rest_apart h hk
          exact waiting_apart (afterReceipt_leaves h.indexed escrowId entry receipt) hrest hapart
        · exact hsame rfl
        · exact hsame rfl
      | adjudicated k out answer =>
        rw [piece]
        split
        · rename_i escrowId claimType hk
          obtain ⟨hrest, hapart⟩ := rest_apart h hk
          exact waiting_apart (afterDispute_leaves h.indexed escrowId claimType answer) hrest hapart
        · exact hsame rfl
        · exact hsame rfl
    have hopens : ∀ taskId, opensOf host ev taskId → Unreleased w.store taskId := by
      cases ev with
      | call out input =>
        rintro taskId ⟨haction, rfl⟩
        exact ht.2.2 haction
      | receiptLoaded | adjudicated => exact fun _ hopens => hopens.elim
    refine ⟨step_indexed hu h.indexed, ?_, hwaits.1, hwaits.2⟩
    intro id e hget hopen
    exact (step_wrote h.indexed hu).unreleased h.indexed hopens h.unreleased hget hopen
  · rw [step, if_neg henabled]
    exact h

/-- Runs in turn are undisturbed. -/
theorem run_undisturbed (h : InOrder w) (ht : Along (step host) (InTurn host) w evs) :
    Along (step host) (Undisturbed host) w evs := by
  induction evs generalizing w with
  | nil => trivial
  | cons ev rest ih => exact ⟨undisturbed_of_inTurn h ht.1, ih (step_inOrder h ht.1) ht.2⟩

/-- **ONE CLOSE**: runs in turn over records in order keep all five promises. -/
theorem escrows_close_once (h : InOrder w) (ht : Along (step host) (InTurn host) w evs) : ClosesOnce host w evs :=
  closesOnce_of_undisturbed h.indexed (run_undisturbed h ht)

/-! ## Two tasks -/

/-- Two instants in July 2026, and the texts the code meets. -/
def july : Host where
  dateParse s :=
    if s = "2026-07-25T17:20:00.000Z" then some 1785000000000
    else if s = "2026-08-01T17:20:00.000Z" then some 1785604800000 else none
  toISOString t :=
    if t = 1785000000000 then "2026-07-25T17:20:00.000Z"
    else if t = 1785604800000 then "2026-08-01T17:20:00.000Z" else ""
  toLowerCase s := s

/-- Collected payments for two tasks, a loader and a disk that works. -/
def outside (randomHex : String) : Outside where
  now := 1785000000000
  saved := true
  randomHex
  findByTask taskId :=
    if taskId = "task-1" then some ⟨7, true, "ref-1", some "2000", "usdc"⟩
    else if taskId = "task-2" then some ⟨7, true, "ref-2", some "500", "usdc"⟩ else none
  settlementProofEnabled := false
  loads := true
  signatureCheck := none
  baseUrl := ""

def request (action taskId : String) : EscrowInput where
  action
  agentId := some 7
  escrowId := ""
  taskId
  amount := none
  expiresAt := ""
  required := ⟨"ab", ""⟩
  claimType := ""

def empty : World := ⟨⟨∅, ∅⟩, [], 0⟩

/-- A release waits for its receipt while the escrow of the other task is opened and clawed back; when both are
    answered, that task is opened again. -/
def releasedRun : List Event :=
  [.call (outside "01") (request "open" "task-1"), .call (outside "02") (request "release" "task-1"),
    .call (outside "03") (request "open" "task-2"), .call (outside "04") (request "clawback" "task-2"),
    .adjudicated 1 (outside "05") (.ok ⟨true, none, some ⟨"dispute-1", .refund, some "500"⟩⟩),
    .receiptLoaded 0 (outside "06") (some ⟨"0xab", "", "", ""⟩), .call (outside "07") (request "open" "task-2")]

theorem empty_inOrder : InOrder empty := by
  refine ⟨indexed_empty, ?_, nofun, List.nodup_nil⟩
  intro id e hget
  cases (AList.lookup_empty id).symm.trans hget

theorem releasedRun_closes_once : ClosesOnce july empty releasedRun :=
  escrows_close_once empty_inOrder (by decide +kernel)

/-- Opened, then a release and a clawback that wait together. -/
def crossedRun : List Event :=
  [.call (outside "01") (request "open" "task-1"), .call (outside "02") (request "release" "task-1"),
    .call (outside "03") (request "clawback" "task-1"),
    .adjudicated 1 (outside "04") (.ok ⟨true, none, some ⟨"dispute-1", .refund, some "2000"⟩⟩),
    .receiptLoaded 0 (outside "05") (some ⟨"0xab", "", "", ""⟩)]

/-- The record is clawed back with a refund, and then released. -/
theorem crossedRun_closes_twice : ¬ ClosesOnce july empty crossedRun := by
  intro h
  have hclawed : ((run (step july) empty (crossedRun.take 4)).store.get "escrow-01").map Escrow.status
      = some .clawedBack := by decide +kernel
  have hreleased : ((run (step july) empty crossedRun).store.get "escrow-01").map Escrow.status
      = some .released := by decide +kernel
  obtain ⟨e, hget, hstatus⟩ := Option.map_eq_some_iff.mp hclawed
  obtain ⟨e', hget', -, hsame, -, -⟩ := h.final (crossedRun.take 4) (crossedRun.drop 4) [] rfl "escrow-01" e hget
    (by rw [hstatus]; exact fun h => nomatch h)
  rw [show crossedRun.take 4 ++ crossedRun.drop 4 = crossedRun from rfl] at hget'
  rw [hget', Option.map_some, Option.some.injEq, hsame, hstatus] at hreleased
  exact nomatch hreleased

end BookEscrowOnce
