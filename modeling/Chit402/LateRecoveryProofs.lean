import Chit402.LateResumeProofs

/-! # What a recovery publishes

    A run signs a row, persists the signature and is cut off; another run
    takes the row up.  Before the row is issued it publishes again, from
    facts the row kept from before the payment was sent; once it is issued
    it does nothing.  So it leaves what the uninterrupted run leaves exactly
    when those facts are the ones of the chain read, or when the last of the
    spent marks had been made. -/

namespace LateRecovery

open Interleaving CrashLogic LateStore LateIssue LatePublication LateOnce LateCrash LateResume OrderedMap Trace

variable (rules : Rules) (payload : Jws → SignedClaims) (id : String) (chain : Chain)

/-! ## What is promised -/

/-- The second run leaves what the uninterrupted run leaves, and its public receipt agrees with its signature. -/
structure Recovers (b u : World) : Prop where
  same : SamePublication (viewOf id b) (viewOf id u)
  agrees : ∀ receipt ∈ (viewOf id b).row.bind LateRow.public_receipt, Agrees payload receipt

/-- **The condition on the state a run is cut off in.** The row is not issued yet, and its own facts are
    those of the chain read; or it is issued, and its marks stand. -/
def Resumable (v : World) : Prop :=
  ∀ row ∈ v.late.lookup id, if row.state = .issued then MarksStand rules row (wonChain row chain) (viewOf id v)
    else SameFacts rules row (wonChain row chain) (viewOf id v)

/-- A run that is cut off once its signature is persisted, its continuation, and the run that takes the row up. -/
structure CutOffRun (c : Config Op Res LateAnswer World) (before after resumed : List Event) : Prop where
  row : ∃ row, c.state.late.lookup id = some row ∧ row.jws = none ∧ row.log_appended = false
  works : MeetsRun exec (Works payload chain) c ((before ++ after).map (0, ·))
  ends : Ended ((run (step exec) c ((before ++ after).map (0, ·))).pool 0)
  persisted : ((run (step exec) c (before.map (0, ·))).state.jwsOn id).isSome
  resumes : MeetsRun exec (Works payload chain) c (before.map (0, ·) ++ resumed.map (1, ·))
  resumedEnds : Ended ((run (step exec) c (before.map (0, ·) ++ resumed.map (1, ·))).pool 1)

variable {rules payload id chain} {v w : World} {n : ℕ} {deps : Deps} {row row' : LateRow} {jws : Jws}

/-! ## The run that takes the row up -/

variable {record : LateRow} {s : Signing} {view : View} {fuel : ℕ}

/-- A run that finds the row signed publishes the facts of the row itself. -/
theorem resume_pending (hid : row.receipt_id ≠ "") (hjws : row.jws = some jws) (hrow : v.late.lookup id = some row')
    (hfollows : Follows row row') (hstate : row'.state = .issuing) (hlog : row'.log_appended = false) :
    LateCut payload chain n (fun _ _ => True)
      (fun _ b _ => Published rules id row jws (rowChain row) (viewOf id v) (viewOf id b)) none v
      (resolveLateRecord rules deps (fuel + 1) id record) := by
  have hsigned : row'.jws = some jws := by
    obtain ⟨state, public_receipt, recorded, appended, served, rfl⟩ := hfollows
    exact hjws
  have hfacts : rowChain row' = rowChain row := by
    obtain ⟨state, public_receipt, recorded, appended, served, rfl⟩ := hfollows
    rfl
  unfold resolveLateRecord
  refine cut_next trivial fun e _ => ?_
  refine cut_next trivial fun e' _ => ?_
  have hfound : (effect (effect v n .now e).1 n (.getLate id) e').2 = some row' := hrow
  rw [hfound]
  dsimp only [Option.getD_some]
  rw [hstate, if_neg (by decide), if_neg (by decide)]
  unfold resolveIssuing
  rw [hstate, if_neg (by decide), hsigned]
  dsimp only
  rw [hfacts]
  unfold publishIssued
  refine cut_next trivial fun e'' _ => ?_
  have hagain : (effect (effect (effect v n .now e).1 n (.getLate id) e').1 n (.getLate id) e'').2 = some row' := hrow
  rw [hagain]
  dsimp only [Option.getD_some]
  rw [hsigned]
  dsimp only
  rw [if_neg (by rw [hlog]; exact fun hc => Bool.false_ne_true hc.1)]
  refine cut_publishSigned hid hfollows (fun _ _ => trivial) hstate hlog ?_ fun _ _ _ hpublished => hpublished
  show viewOf id v = { viewOf id v with row := some row' }
  rw [← hrow]
  rfl

theorem resume_issued (hrow : v.late.lookup id = some row') (hstate : row'.state = .issued) :
    LateCut payload chain n (fun _ _ => True) (fun _ b _ => viewOf id b = viewOf id v) none v
      (resolveLateRecord rules deps fuel id record) := by
  unfold resolveLateRecord
  refine cut_next trivial fun e _ => ?_
  refine cut_next trivial fun e' _ => ?_
  have hfound : (effect (effect v n .now e).1 n (.getLate id) e').2 = some row' := hrow
  rw [hfound]
  dsimp only [Option.getD_some]
  rw [hstate, if_pos (by decide), if_neg (by simp)]
  exact cut_pure trivial rfl

/-! ## The row of a cut-off state -/

theorem marksStand_follows (h : Follows row row') :
    MarksStand rules row' (wonChain row' chain) view ↔ MarksStand rules row (wonChain row chain) view := by
  obtain ⟨state, public_receipt, recorded, appended, served, rfl⟩ := h
  exact ⟨fun h => ⟨h.nonce, h.auth, h.tx⟩, fun h => ⟨h.nonce, h.auth, h.tx⟩⟩

theorem sameFacts_follows (h : Follows row row') :
    SameFacts rules row' (wonChain row' chain) view ↔ SameFacts rules row (wonChain row chain) view := by
  obtain ⟨state, public_receipt, recorded, appended, served, rfl⟩ := h
  exact ⟨fun h => ⟨h.amount, h.payee, h.ref, h.payer⟩, fun h => ⟨h.amount, h.payee, h.ref, h.payer⟩⟩

theorem resumable_pending (hrow : v.late.lookup id = some row') (hfollows : Follows row row')
    (hstate : row'.state = .issuing) :
    Resumable rules id chain v ↔ SameFacts rules row (wonChain row chain) (viewOf id v) := by
  unfold Resumable
  rw [hrow]
  simp only [Option.mem_def, Option.some.injEq, forall_eq']
  rw [hstate, if_neg (by decide)]
  exact sameFacts_follows hfollows

theorem resumable_issued (hrow : v.late.lookup id = some row') (hfollows : Follows row row')
    (hstate : row'.state = .issued) :
    Resumable rules id chain v ↔ MarksStand rules row (wonChain row chain) (viewOf id v) := by
  unfold Resumable
  rw [hrow]
  simp only [Option.mem_def, Option.some.injEq, forall_eq']
  rw [if_pos hstate]
  exact marksStand_follows hfollows

theorem agrees_publicLateReceipt (hs : Signed payload chain s) :
    Agrees payload (publicLateReceipt rules id s.row (wonChain s.row chain) s.jws) := by
  obtain ⟨amount, hamount⟩ := Option.isSome_iff_exists.1 hs.named.amount
  constructor
  · show chain.amount.or s.row.expected_settled_amount = (payload s.jws).amount_settled
    rw [hs.claims, hamount]
    exact hamount.symm
  · show (firstOf [chain.payTo]).or s.row.payee = (payload s.jws).pay_to
    rw [hs.claims]
    rfl

theorem recovers_iff_same {base : View} {b u : World} (hs : Signed payload chain s)
    (hu : Published rules id s.row s.jws (wonChain s.row chain) base (viewOf id u)) :
    Recovers payload id b u ↔ SamePublication (viewOf id b) (viewOf id u) := by
  constructor
  · exact fun h => h.same
  · intro h
    refine ⟨h, ?_⟩
    intro receipt hreceipt
    rw [h.publicReceipt, hu.publicReceipt] at hreceipt
    rw [← Option.some.inj hreceipt]
    exact agrees_publicLateReceipt hs

theorem later_refl (g : Option Signing) : Later g g := Or.inr rfl

theorem later_trans (g g' g'' : Option Signing) (h : Later g g') (h' : Later g' g'') : Later g g'' := by
  rcases h with rfl | rfl
  · exact Or.inl rfl
  · exact h'

/-- **THE RECOVERY**: the run that takes a signed row up leaves what the uninterrupted run leaves exactly
    when the state the first one was cut off in is resumable. -/
theorem recovers_iff_resumable {fuel : ℕ → ℕ} {deps : ℕ → Deps} {record : ℕ → LateRow}
    {before after resumed : List Event}
    (hfuel : 2 ≤ fuel 0 ∧ 1 ≤ fuel 1)
    (h : CutOffRun payload id chain (runs rules id deps fuel record w) before after resumed) : Recovers payload id
        (run (step exec) (runs rules id deps fuel record w) (before.map (0, ·) ++ resumed.map (1, ·))).state
        (run (step exec) (runs rules id deps fuel record w) ((before ++ after).map (0, ·))).state
      ↔ Resumable rules id chain (run (step exec) (runs rules id deps fuel record w) (before.map (0, ·))).state := by
  obtain ⟨⟨row, hrow, hunsigned, hunlogged⟩, hworks, hends, hpersisted, hresumes, hresumedEnds⟩ := h
  obtain ⟨fuel₀, hfuel₀⟩ := Nat.exists_eq_add_of_le' hfuel.1
  obtain ⟨fuel₁, hfuel₁⟩ := Nat.exists_eq_add_of_le' hfuel.2
  rw [List.map_append] at hworks hends ⊢
  rw [run_append] at hends ⊢
  rw [run_append] at hresumedEnds ⊢
  have halone : Alone rules payload id chain 0 w none w ((runs rules id deps fuel record w).pool 0) := by
    show Alone _ _ _ _ _ _ _ _ (resolveLateRecord rules (deps 0) (fuel 0) id (record 0))
    rw [hfuel₀]
    refine alone_resolveLateRecord ⟨hunsigned, hunlogged, ?_⟩
    show viewOf id w = { viewOf id w with row := some row }
    rw [← hrow]
    rfl
  obtain ⟨g, -, hcut⟩ := cut_run later_refl later_trans before halone hworks.append.1
  have hpool : (run (step exec) (runs rules id deps fuel record w) (before.map (0, ·))).pool 1
      = resolveLateRecord rules (deps 1) (fuel₁ + 1) id (record 1) := by
    rw [pool_other (by decide), ← hfuel₁]
    rfl
  have hworksAfter := hworks.append.2
  have hresumesAfter := hresumes.append.2
  generalize run (step exec) (runs rules id deps fuel record w) (before.map (0, ·)) = c at *
  have hpoint := hcut.point
  cases g with
  | none =>
    -- the row is unsigned where the run was cut off
    obtain ⟨row', hat⟩ := hpoint
    unfold World.jwsOn at hpersisted
    rw [lookup_of_view hat.view, Option.bind_some, hat.unsigned] at hpersisted
    cases hpersisted
  | some s =>
    obtain ⟨hs, hunderWay⟩ := hpoint
    obtain ⟨g', hlater, hcut'⟩ := cut_run later_refl later_trans after hcut hworksAfter
    obtain rfl : some s = g' := hlater.resolve_left nofun
    obtain ⟨r, -, hu⟩ := hcut'.ends hends
    rw [recovers_iff_same hs hu]
    have hclaims : Named s.row (wonChain s.row chain) := ⟨hs.named.payTo, hs.named.payee, hs.named.amount⟩
    cases hunderWay with
    | pending row' hrow' follows hstate hlog lateLedger digests challenges authSpent txSpent txFacts =>
      rw [resumable_pending hrow' follows hstate]
      have hresume : LateCut payload chain 1 (fun _ _ => True)
          (fun _ b _ => Published rules id s.row s.jws (rowChain s.row) (viewOf id c.state) (viewOf id b)) none c.state
          (resolveLateRecord rules (deps 1) (fuel₁ + 1) id (record 1)) :=
        resume_pending hs.receiptId hs.jws hrow' follows hstate hlog
      rw [← hpool] at hresume
      obtain ⟨g'', -, hcut''⟩ := cut_run later_refl later_trans resumed hresume hresumesAfter
      obtain ⟨r', hb⟩ := hcut''.ends hresumedEnds
      exact samePublication_iff_sameFacts hclaims lateLedger digests challenges authSpent txSpent txFacts hb hu
    | issued row' hrow' follows hstate publicReceipt lateLedger digests challenges authSpent txSpent txFacts =>
      rw [resumable_issued hrow' follows hstate]
      have hresume : LateCut payload chain 1 (fun _ _ => True)
        (fun _ b _ => viewOf id b = viewOf id c.state) none c.state
          (resolveLateRecord rules (deps 1) (fuel₁ + 1) id (record 1)) := resume_issued hrow' hstate
      rw [← hpool] at hresume
      obtain ⟨g'', -, hcut''⟩ := cut_run later_refl later_trans resumed hresume hresumesAfter
      obtain ⟨r', hb⟩ := hcut''.ends hresumedEnds
      rw [hb]
      refine samePublication_iff_marksStand ?_ lateLedger digests challenges authSpent txSpent txFacts hu
      rw [hrow', Option.bind_some, publicReceipt]

/-! ## A recovery, and two that change what is published -/

/-- What the sample's signer signs. -/
def samplePayload (_ : Jws) : SignedClaims :=
    ⟨"late-r", some samplePayTo, some sampleAmount, some sampleAmount, some samplePayer⟩

/-- The run of the sample, cut off right after its signature is persisted. -/
def beforeEvents : List Event := List.replicate 16 (sampleEvent firstJws)

theorem sample_cutOffRun :
    CutOffRun samplePayload "r" sampleChain sampleRuns beforeEvents beforeEvents beforeEvents := by
  constructor
  case row => exact ⟨sampleRow, by decide, rfl, rfl⟩
  all_goals decide +kernel

theorem recovers_iff_resumable_sample : Recovers samplePayload "r"
        (run (step exec) sampleRuns (beforeEvents.map (0, ·) ++ beforeEvents.map (1, ·))).state
        (run (step exec) sampleRuns ((beforeEvents ++ beforeEvents).map (0, ·))).state := by
  refine (recovers_iff_resumable (by decide) sample_cutOffRun).2 ?_
  have hrow : ∀ row ∈ (run (step exec) sampleRuns (beforeEvents.map (0, ·))).state.late.lookup "r",
      row.state ≠ .issued ∧ row.expected_settled_amount = sampleChain.amount ∧ row.payee = sampleChain.payTo
        ∧ ledgerRef sampleRules row (rowChain row) = ledgerRef sampleRules row (wonChain row sampleChain)
        ∧ row.auth.from = sampleChain.payer := by decide +kernel
  intro row hmem
  obtain ⟨hstate, hamount, hpayee, href, hpayer⟩ := hrow row hmem
  rw [if_neg hstate]
  exact ⟨hamount, hpayee, href, fun _ => hpayer⟩

/-- The same run, cut off right after its row is issued. -/
def issuedEvents : List Event := List.replicate 24 (sampleEvent firstJws)

/-- The payee of a row, as its challenge spells it. -/
def rowPayTo : String := "0x5aaeb6053f3e94c9b9a09f33669435e7ef1beaed"

/-- The same address, as a chain read spells it. -/
def chainPayTo : String := "0x5aAeb6053F3E94C9b9A09f33669435E7Ef1BeAed"

def respelledEvent : Event := { sampleEvent firstJws with chain := { sampleChain with payTo := some chainPayTo } }

def respelledEvents : List Event := List.replicate 16 respelledEvent

def respelledPayload (_ : Jws) : SignedClaims :=
    ⟨"late-r", some chainPayTo, some sampleAmount, some sampleAmount, some samplePayer⟩

/-- Addresses are compared without case: here, the two spellings of the payee. -/
def respelledRules : Rules := { sampleRules with samePayee := fun a b => a = b ∨ (a = chainPayTo ∧ b = rowPayTo) }

def respelledRuns : Config Op Res LateAnswer World :=
  runs respelledRules "r" (fun _ => sampleDeps) (fun _ => 2) (fun _ => sampleRow)
    { sampleWorld with late := OrderedMap.set ∅ "r" { sampleRow with payee := some rowPayTo } }

/-- Cut off once the row is issued, the transaction stays unspent for good.  Cut off before, with the
    payee spelled in another case on chain, the receipt shows another text than its signature signs. -/
theorem recovery_changes_publication :
    (CutOffRun samplePayload "r" sampleChain sampleRuns issuedEvents issuedEvents issuedEvents
      ∧ ¬ Recovers samplePayload "r"
        (run (step exec) sampleRuns (issuedEvents.map (0, ·) ++ issuedEvents.map (1, ·))).state
        (run (step exec) sampleRuns ((issuedEvents ++ issuedEvents).map (0, ·))).state)
    ∧ CutOffRun respelledPayload "r" { sampleChain with payTo := some chainPayTo } respelledRuns respelledEvents
        respelledEvents respelledEvents
      ∧ ∃ receipt ∈ (viewOf "r" (run (step exec) respelledRuns
          (respelledEvents.map (0, ·) ++ respelledEvents.map (1, ·))).state).row.bind LateRow.public_receipt,
        ¬ Agrees respelledPayload receipt := by
  refine ⟨⟨?_, ?_⟩, ?_, ?_⟩
  · constructor
    case row => exact ⟨sampleRow, by decide, rfl, rfl⟩
    all_goals decide +kernel
  · intro h
    have hspent : (viewOf "r" (run (step exec) sampleRuns
        (issuedEvents.map (0, ·) ++ issuedEvents.map (1, ·))).state).txSpent
          ≠ (viewOf "r" (run (step exec) sampleRuns ((issuedEvents ++ issuedEvents).map (0, ·))).state).txSpent := by
      decide +kernel
    exact hspent h.same.txSpent
  · constructor
    case row => exact ⟨{ sampleRow with payee := some rowPayTo }, by decide, rfl, rfl⟩
    all_goals decide +kernel
  · have hshown : ((viewOf "r" (run (step exec) respelledRuns
        (respelledEvents.map (0, ·) ++ respelledEvents.map (1, ·))).state).row.bind LateRow.public_receipt).map
          LateReceipt.payee = some (some rowPayTo) := by decide +kernel
    obtain ⟨receipt, hpublic, hpayee⟩ := Option.map_eq_some_iff.1 hshown
    refine ⟨receipt, hpublic, ?_⟩
    intro h
    exact absurd (hpayee.symm.trans h.2) (show some rowPayTo ≠ some chainPayTo by decide)

end LateRecovery
