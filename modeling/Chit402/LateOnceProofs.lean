import Chit402.LateReadProofs

/-! # One signature for a late row

    What the runs show was read from the row.  So their answers, the receipt
    log, the usage ledger and the public receipt belong to one signature as
    long as a row never loses the one it has: as long as every
    compare-and-set that writes or clears the signature finds the row
    unsigned. -/

namespace LateOnce

open Interleaving LateStore LateIssue LateRead OrderedMap Trace

variable (rules : Rules) (id : String)

/-! ## What is promised -/

/-- At most one signature is ever put on the row, and whatever the runs show is that one. -/
structure SignsOnce (c : Config Op Res LateAnswer World) : Prop where
  once : (c.state.persistedOn id).length ≤ 1
  returned : ∀ n a jws, c.pool n = .done a → a.jws = some jws → jws ∈ c.state.persistedOn id
  log : ∀ e ∈ c.state.log, ∃ jws ∈ c.state.persistedOn id, e.2 = rules.sha256 jws
  ledger : ∀ receipt ∈ c.state.ledger, receipt.jws ∈ c.state.persistedOn id
  publicReceipt : ∀ row ∈ c.state.late.lookup id, ∀ receipt ∈ row.public_receipt, receipt.jws ∈ c.state.persistedOn id

/-- **The condition on one operation.** A compare-and-set that writes or
    clears the signature, if it succeeds, finds the row without one. -/
def FindsUnsigned (w : World) (_ : ℕ) (o : Op) (e : Event) : Prop :=
  match o with
  | .casLate id' allowed _ patch => id' = id → patch.jws.isSome → e.fails ≠ some false →
      ∀ row ∈ casRow w.late id allowed patch, row.jws = none
  | _ => True

/-- The row before any run: no signature, and nothing shown. -/
structure Unsigned (w : World) : Prop where
  row : ∃ row, w.late.lookup id = some row ∧ row.jws = none ∧ row.public_receipt = none
  persisted : w.persistedOn id = []
  log : w.log = []
  ledger : w.ledger = []

/-- A pool of runs on the row, each with what it was called with. -/
def runs (deps : ℕ → Deps) (fuel : ℕ → ℕ) (record : ℕ → LateRow) (w : World) : Config Op Res LateAnswer World where
  state := w
  pool n := resolveLateRecord rules (deps n) (fuel n) id (record n)

variable {rules id} {k : Set Jws}

/-! ## The invariant -/

/-- What every interleaving keeps: the row's signature is the only one it ever had, and nothing else is shown. -/
structure Kept (rules : Rules) (id : String) (w : World) : Prop where
  row : (w.late.lookup id).isSome
  persisted : w.persistedOn id = (w.jwsOn id).toList
  log : ∀ e ∈ w.log, ∃ jws ∈ w.persistedOn id, e.2 = rules.sha256 jws
  ledger : ∀ receipt ∈ w.ledger, receipt.jws ∈ w.persistedOn id
  publicReceipt : ∀ row ∈ w.late.lookup id, ∀ receipt ∈ row.public_receipt, receipt.jws ∈ w.persistedOn id

/-- A run has read only signatures that were put on the row. -/
def Knows (id : String) (_ : ℕ) (k : Set Jws) (w : World) : Prop := ∀ jws, jws ∈ k → jws ∈ w.persistedOn id

variable {w : World} {n : ℕ} {o : Op} {e : Event}

variable {jws : Jws}

theorem Kept.seen (h : Kept rules id w) (hjws : jws ∈ seen (w.late.lookup id)) : jws ∈ w.persistedOn id := by
  rw [h.persisted]
  unfold World.jwsOn
  cases hrow : w.late.lookup id with
  | none =>
    have hthere := h.row
    rw [hrow] at hthere
    cases hthere
  | some row =>
    rw [hrow] at hjws
    have hsigned : row.jws = some jws := hjws
    rw [Option.bind_some, hsigned]
    exact List.mem_singleton_self jws

theorem persistedOn_exec (h : jws ∈ w.persistedOn id) : jws ∈ (exec w n o e).1.persistedOn id := by
  rcases exec_cases w n o e with ⟨hexec, -⟩ | ⟨hexec, -⟩ | ⟨hexec, -⟩
  · rw [hexec]
    exact persistedOn_effect h
  · rw [hexec]
    exact persistedOn_effect h
  · rw [hexec]
    exact h

/-- The compare-and-set: an unsigned row takes the signature of the patch, and any other patch leaves it. -/
theorem kept_cas {allowed : List LateState} {target : LateState} {patch : LatePatch} (h : Kept rules id w)
    (hk : Knows id n k w) (hs : Shows rules id k (.casLate id allowed target patch))
    (hunsigned : patch.jws.isSome → ∀ row ∈ casRow w.late id allowed patch, row.jws = none) :
    Kept rules id (effect w n (.casLate id allowed target patch) e).1 := by
  obtain ⟨hlate, hpersisted, -⟩ := effect_cas w n id allowed target patch e
  have hlog : (effect w n (.casLate id allowed target patch) e).1.log = w.log := rfl
  have hledger : (effect w n (.casLate id allowed target patch) e).1.ledger = w.ledger := rfl
  have hgrows : ∀ jws ∈ w.persistedOn id, jws ∈ (effect w n (.casLate id allowed target patch) e).1.persistedOn id :=
    fun jws hjws => persistedOn_effect hjws
  cases hcas : casRow w.late id allowed patch with
  | none =>
    rw [hcas, Option.map_none, Option.none_or] at hlate
    have hnew : newJws w id allowed patch = none := by
      unfold newJws
      rw [hcas]
      rfl
    rw [hnew, Option.toList_none, List.append_nil] at hpersisted
    refine ⟨?_, ?_, ?_, ?_, ?_⟩
    · rw [hlate]
      exact h.row
    · rw [hpersisted, World.jwsOn, hlate]
      exact h.persisted
    · rw [hlog, hpersisted]
      exact h.log
    · rw [hledger, hpersisted]
      exact h.ledger
    · rw [hlate, hpersisted]
      exact h.publicReceipt
  | some rec =>
    obtain ⟨hrec, -, -⟩ := casRow_eq_some.1 hcas
    rw [hcas, Option.map_some, Option.some_or] at hlate
    have hnew : newJws w id allowed patch = patch.jws.join := by
      unfold newJws
      rw [hcas]
      rfl
    have hold : w.persistedOn id = rec.jws.toList := by
      rw [h.persisted, World.jwsOn, hrec]
      rfl
    refine ⟨?_, ?_, ?_, ?_, ?_⟩
    · rw [hlate]
      rfl
    · rw [hpersisted, hnew, hold, World.jwsOn, hlate]
      show rec.jws.toList ++ patch.jws.join.toList = (patch.jws.getD rec.jws).toList
      cases hjws : patch.jws with
      | none => exact List.append_nil _
      | some jws =>
        have hnone : rec.jws = none := hunsigned (by rw [hjws]; rfl) rec hcas
        rw [hnone]
        rfl
    · intro entry hentry
      obtain ⟨jws, hjws, hdigest⟩ := h.log entry hentry
      exact ⟨jws, hgrows jws hjws, hdigest⟩
    · exact fun receipt hreceipt => hgrows _ (h.ledger receipt hreceipt)
    · rw [hlate]
      rintro row ⟨⟩ receipt hreceipt
      have hor : patch.public_receipt.or rec.public_receipt = some receipt := hreceipt
      rcases Option.or_eq_some_iff.1 hor with hpatch | ⟨-, hrow⟩
      · exact hgrows _ (hk _ (hs.2 receipt hpatch))
      · exact hgrows _ (h.publicReceipt rec hrec receipt hrow)

/-- **STEP**: an operation that shows only what its run has read keeps the invariant. -/
theorem kept_effect (h : Kept rules id w) (hk : Knows id n k w) (hs : Shows rules id k o)
    (hcond : FindsUnsigned id w n o e) (hfails : e.fails ≠ some false) : Kept rules id (effect w n o e).1 := by
  by_cases hrow : o.row = some id
  · cases o with
    | casLate id' allowed target patch =>
      cases hrow
      exact kept_cas h hk hs fun hjws row hcas => hcond rfl hjws hfails row hcas
    | _ => cases hrow
  · obtain ⟨hlate, hpersisted⟩ := effect_late (w := w) (n := n) (e := e) hrow
    have hjws : (effect w n o e).1.jwsOn id = w.jwsOn id := by
      unfold World.jwsOn
      rw [hlate]
    refine ⟨?_, ?_, ?_, ?_, ?_⟩
    · rw [hlate]
      exact h.row
    · rw [hpersisted, hjws]
      exact h.persisted
    · rw [hpersisted]
      cases o with
      | appendLog record digest =>
        obtain ⟨jws, hknown, hdigest⟩ := hs
        intro entry hentry
        dsimp only [effect] at hentry
        split_ifs at hentry
        · rcases List.mem_append.1 hentry with hold | hnew
          · exact h.log entry hold
          · rw [List.mem_singleton.1 hnew]
            exact ⟨jws, hk jws hknown, hdigest⟩
        · exact h.log entry hentry
      | _ => exact h.log
    · rw [hpersisted]
      cases o with
      | recordLedger receipt =>
        intro receipt' hreceipt
        rcases List.mem_append.1 hreceipt with hold | hnew
        · exact h.ledger receipt' hold
        · rw [List.mem_singleton.1 hnew]
          exact hk _ hs
      | appendLog record digest =>
        dsimp only [effect]
        split_ifs <;> exact h.ledger
      | _ => exact h.ledger
    · rw [hlate, hpersisted]
      exact h.publicReceipt

/-- What an operation teaches its run is true. -/
theorem knows_learn (h : Kept rules id (effect w n o e).1) (hk : Knows id n k w) (hs : Shows rules id k o) :
    Knows id n (learn k o (some (effect w n o e).2)) (effect w n o e).1 := by
  have hold : Knows id n k (effect w n o e).1 := fun jws hjws => persistedOn_effect (hk jws hjws)
  cases o with
  | getLate id' =>
    cases hs
    rintro jws (hjws | hjws)
    · exact hold jws hjws
    · exact h.seen hjws
  | casLate id' allowed target patch =>
    obtain ⟨rfl, -⟩ := hs
    obtain ⟨hlate, -, hanswer⟩ := effect_cas w n id' allowed target patch e
    rw [hanswer]
    cases hcas : casRow w.late id' allowed patch with
    | none => exact hold
    | some rec =>
      rw [hcas, Option.map_some, Option.some_or] at hlate
      rintro jws (hjws | hjws)
      · exact hold jws hjws
      · refine h.seen ?_
        rw [hlate]
        exact hjws
  | _ => exact hold

theorem kept_exec (h : Kept rules id w) (hk : Knows id n k w) (hs : Shows rules id k o)
    (hcond : FindsUnsigned id w n o e) :
    Kept rules id (exec w n o e).1 ∧ Knows id n (learn k o (exec w n o e).2) (exec w n o e).1 := by
  have hthrown : ∀ w', Knows id n k w' → Knows id n (learn k o none) w' := by
    intro w' hw'
    cases o <;> exact hw'
  rcases exec_cases w n o e with ⟨hexec, hfails⟩ | ⟨hexec, hfails⟩ | ⟨hexec, -⟩
  · have hkept := kept_effect h hk hs hcond (by rw [hfails]; decide)
    rw [hexec]
    exact ⟨hkept, knows_learn hkept hk hs⟩
  · have hkept := kept_effect h hk hs hcond (by rw [hfails]; decide)
    rw [hexec]
    exact ⟨hkept, hthrown _ fun jws hjws => persistedOn_effect (hk jws hjws)⟩
  · rw [hexec]
    exact ⟨h, hthrown _ hk⟩

/-- **SIGNED ONCE**: under every schedule, with any answers, failures and
    crashes, as long as no signature is written over or cleared. -/
theorem signsOnce_of_findsUnsigned (rules : Rules) (id : String) (deps : ℕ → Deps) (fuel : ℕ → ℕ) (record : ℕ → LateRow)
    {w : World} (hw : Unsigned id w) {events : List (ℕ × Event)}
    (hmeets : MeetsRun exec (FindsUnsigned id) (runs rules id deps fuel record w) events) :
    ∀ before after, events = before ++ after →
      SignsOnce rules id (run (step exec) (runs rules id deps fuel record w) before) := by
  rintro before after rfl
  obtain ⟨row, hrow, hjws, hreceipt⟩ := hw.row
  have hkept : Kept rules id w := by
    refine ⟨?_, ?_, ?_, ?_, ?_⟩
    · rw [hrow]
      rfl
    · rw [hw.persisted, World.jwsOn, hrow, Option.bind_some, hjws]
      rfl
    · rw [hw.log]
      simp
    · rw [hw.ledger]
      simp
    · rw [hrow]
      rintro row' ⟨⟩
      rw [hreceipt]
      simp
  have hstart : Judged (fun _ => Shows rules id) (fun _ => learn) (fun _ => Answers) (Kept rules id) (Knows id)
      (runs rules id deps fuel record w) :=
    ⟨hkept, fun n => ⟨∅, fun _ hjws => hjws.elim, careful_resolveLateRecord ..⟩⟩
  obtain ⟨hend, hknow⟩ := pool_keeps (fun _ _ _ _ _ => kept_exec) (fun _ _ _ _ _ _ _ _ _ _ _ _ hk jws hjws =>
    persistedOn_exec (hk jws hjws)) hstart hmeets.append.1
  refine ⟨?_, ?_, hend.log, hend.ledger, hend.publicReceipt⟩
  · rw [hend.persisted]
    cases World.jwsOn _ id with
    | none => exact Nat.zero_le 1
    | some jws => exact Nat.le_refl 1
  · intro n a jws hdone ha
    obtain ⟨k, hk, hjudge⟩ := hknow n
    rw [hdone] at hjudge
    exact hk jws (hjudge jws ha)

/-! ## A run that signs once, and one that signs twice -/

def sampleTx : String := "0xaaaaaaaaaaaaaaaaaaaaaaaaaaaaaaaaaaaaaaaaaaaaaaaaaaaaaaaaaaaaaaaa"

def sampleAsset : String := "0x833589fcd6edb6e08f4c7c32d4f71b54bda02913"

def samplePayTo : String := "0x1111111111111111111111111111111111111111"

def samplePayer : String := "0x2222222222222222222222222222222222222222"

def firstJws : Jws := ⟨"eyJ2IjoxMX0..first", by decide⟩

def secondJws : Jws := ⟨"eyJ2IjoxMX0..second", by decide⟩

def sampleAmount : Amount := ⟨"1000", by decide⟩

/-- The rules of other modules, as they answer on the values of these runs. -/
def sampleRules : Rules where
  normalizePaymentRef network tx := some (network ++ ":" ++ tx)
  samePayee a b := a = b
  canonicalNetwork network := network
  sha256 text :=
    if text = firstJws then "fc016a52ad1c3fb8d8729324c165acd534ac31b73c940259019bcab89fef3482"
    else if text = secondJws then "20c37caa62a4b76555031031251b745bcb83fca5ff6c326042bda53d34f1794e"
    else "e3b0c44298fc1c149afbf4c8996fb92427ae41e4649b934ca495991b7852b855"
  bigInt text := if text = sampleAmount.1 then some 1000 else none

/-- A row whose settle was sent, not yet found on chain. -/
def sampleRow : LateRow where
  state := .unknown
  sent := true
  inline := false
  submitted_at := some 1000000
  nonce := "0xabc"
  network := "base"
  asset := some sampleAsset
  payee := some samplePayTo
  route_quote := some sampleAmount
  expected_settled_amount := some sampleAmount
  auth_key := some "base|0x833589fcd6edb6e08f4c7c32d4f71b54bda02913|0x2222222222222222222222222222222222222222|0x01"
  auth := ⟨some samplePayer, some sampleAmount, some 0, some 5000⟩
  scanned_to := none
  request_digest := none
  challenge_issued_at := some 900000
  tx_hint := some sampleTx
  tx_ref := none
  jws := none
  receipt_id := "late-r"
  public_receipt := none
  ledger_recorded := false
  served := false
  why := none
  lease_owner := none
  lease_seq := 0
  lease_until := 0
  confirmed_at := none
  log_appended := false
  hold_class := none
  public_code := none

def sampleWorld : World where
  late := OrderedMap.set ∅ "r" sampleRow
  lateLedger := []
  reservations := TxReservation.emptyStore
  challenges := ⟨120000, ∅, ∅⟩
  log := []
  ledger := []
  persisted := []

/-- A finalized read of the row's transfer. -/
def sampleChain : Chain where
  ok := true
  pending := false
  finalized := true
  network := some "base"
  asset := some sampleAsset
  payTo := some samplePayTo
  payer := some samplePayer
  authorizer := some samplePayer
  amount := some sampleAmount
  transferCount := some 1
  blockTimestamp := some 1001
  tx := some sampleTx
  transaction := none
  scannedTo := none
  nonceUnused := false

/-- Two background runs of one process, with late issue on. -/
def sampleDeps : Deps := ⟨"1", none, false, true, false, 86400000⟩

def sampleRuns : Config Op Res LateAnswer World :=
  runs sampleRules "r" (fun _ => sampleDeps) (fun _ => 2) (fun _ => sampleRow) sampleWorld

/-- An operation that works, ten seconds after the submission. -/
def sampleEvent (jws : Jws) : Event := ⟨none, 1010000, sampleChain, true, some jws, true, false⟩

theorem sampleWorld_unsigned : Unsigned "r" sampleWorld :=
  ⟨⟨sampleRow, by decide, rfl, rfl⟩, rfl, rfl, rfl⟩

/-- The second run meets the row while the first waits for its signer. Both
    carry the owner of the process, so the second takes the row back, wins it
    and reserves the transaction again. Each persists its own signature. -/
def sameOwnerEvents : List (ℕ × Event) :=
  List.replicate 14 (0, sampleEvent firstJws) ++ List.replicate 14 (1, sampleEvent secondJws)
    ++ List.replicate 4 (0, sampleEvent firstJws) ++ List.replicate 2 (1, sampleEvent secondJws)
    ++ List.replicate 10 (0, sampleEvent firstJws)

/-- The first run has answered with a signature that is no longer the row's. -/
theorem sameOwner_signs_twice : (run (step exec) sampleRuns sameOwnerEvents).state.jwsOn "r" = some secondJws
      ∧ (run (step exec) sampleRuns sameOwnerEvents).state.log.map Prod.snd = [sampleRules.sha256 firstJws]
      ∧ ¬ SignsOnce sampleRules "r" (run (step exec) sampleRuns sameOwnerEvents) := by
  refine ⟨by decide +kernel, by decide +kernel, ?_⟩
  intro h
  have htwo : ((run (step exec) sampleRuns sameOwnerEvents).state.persistedOn "r").length = 2 := by decide +kernel
  have hone := h.once
  omega

end LateOnce
