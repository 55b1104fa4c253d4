import Chit402.ChallengeNonceProofs
import Chit402.InterleavingProofs
import Chit402.TxReservationProofs

/-! # The store of late issue

    One durable store holds the late rows beside the challenges, the spent
    marks and the leases.  Every operation takes the store's lock, reads,
    writes and gives it back, so a run of a program is a sequence of atomic
    operations with calls to the outside between them.  A late row is read as
    a copy: what another run writes later does not show in it. -/

namespace LateStore

open OrderedMap

/-! ## Late rows -/

inductive LateState
  | submitted
  | unknown
  | confirmed
  | issuing
  | issued
  | mismatch_hold
  | expired_unresolved
  | not_settled
deriving DecidableEq

/-- `TERMINAL` -/
def LateState.terminal : LateState → Bool
  | .issued | .mismatch_hold | .expired_unresolved | .not_settled => true
  | .submitted | .unknown | .confirmed | .issuing => false

/-- A signature. The signer's answer is refused when it is empty. -/
abbrev Jws := { text : String // text ≠ "" }

/-- An amount, as it is spelled. None that is kept or read is empty. -/
abbrev Amount := { text : String // text ≠ "" }

/-- The authorization of a row; `none` throughout for a row without one. -/
structure Authorization where
  «from» : Option String
  value : Option Amount
  validAfter : Option ℤ
  validBefore : Option ℤ
deriving DecidableEq

/-- `publicLateReceipt` -/
structure LateReceipt where
  task_id : String
  receipt_id : String
  status : String
  rail : String
  ref : Option String
  asset : String
  payee : Option String
  gross_amount : Option Amount
  settled_amount : Option Amount
  network : String
  jws : Jws
  note : String
deriving DecidableEq

/-- A row, without its `pending_id`, which is its key. A number is `none` where the code would read `NaN`. -/
structure LateRow where
  state : LateState
  sent : Bool
  inline : Bool
  submitted_at : Option ℤ
  nonce : String
  network : String
  asset : Option String
  payee : Option String
  route_quote : Option Amount
  expected_settled_amount : Option Amount
  auth_key : Option String
  auth : Authorization
  scanned_to : Option String
  request_digest : Option String
  challenge_issued_at : Option ℤ
  tx_hint : Option String
  tx_ref : Option String
  jws : Option Jws
  receipt_id : String
  public_receipt : Option LateReceipt
  ledger_recorded : Bool
  served : Bool
  why : Option String
  lease_owner : Option String
  lease_seq : ℕ
  lease_until : ℤ
  confirmed_at : Option ℤ
  log_appended : Bool
  hold_class : Option String
  public_code : Option String
deriving DecidableEq

/-- The fields a compare-and-set writes; the others stay. -/
structure LatePatch where
  sent : Option Bool := none
  inline : Option Bool := none
  scanned_to : Option String := none
  request_digest : Option String := none
  tx_hint : Option (Option String) := none
  tx_ref : Option (Option String) := none
  jws : Option (Option Jws) := none
  receipt_id : Option String := none
  public_receipt : Option LateReceipt := none
  ledger_recorded : Option Bool := none
  served : Option Bool := none
  why : Option String := none
  lease_owner : Option (Option String) := none
  lease_seq : Option ℕ := none
  lease_until : Option ℤ := none
  confirmed_at : Option ℤ := none
  log_appended : Option Bool := none
  hold_class : Option String := none
  public_code : Option String := none

/-- `Object.assign(rec, patch, { state: to })` -/
def LateRow.assign (rec : LateRow) (patch : LatePatch) (target : LateState) : LateRow :=
  { rec with
    state := target
    sent := patch.sent.getD rec.sent
    inline := patch.inline.getD rec.inline
    scanned_to := patch.scanned_to.or rec.scanned_to
    request_digest := patch.request_digest.or rec.request_digest
    tx_hint := patch.tx_hint.getD rec.tx_hint
    tx_ref := patch.tx_ref.getD rec.tx_ref
    jws := patch.jws.getD rec.jws
    receipt_id := patch.receipt_id.getD rec.receipt_id
    public_receipt := patch.public_receipt.or rec.public_receipt
    ledger_recorded := patch.ledger_recorded.getD rec.ledger_recorded
    served := patch.served.getD rec.served
    why := patch.why.or rec.why
    lease_owner := patch.lease_owner.getD rec.lease_owner
    lease_seq := patch.lease_seq.getD rec.lease_seq
    lease_until := patch.lease_until.getD rec.lease_until
    confirmed_at := patch.confirmed_at.or rec.confirmed_at
    log_appended := patch.log_appended.getD rec.log_appended
    hold_class := patch.hold_class.or rec.hold_class
    public_code := patch.public_code.or rec.public_code }

/-- A reference of the patch that stands on another row. -/
def txRefClash (late : OrderedMap String LateRow) (id : String) (patch : LatePatch) : Bool :=
  match patch.tx_ref with
  | some (some ref) => ref ≠ "" ∧ late.entries.any fun e => e.1 ≠ id ∧ e.2.tx_ref = some ref
  | _ => false

/-- The row a `casLate` would write to. -/
def casRow (late : OrderedMap String LateRow) (id : String) (allowed : List LateState) (patch : LatePatch) :
    Option LateRow :=
  (late.lookup id).filter fun rec => rec.state ∈ allowed ∧ ¬ txRefClash late id patch

/-- Compare-and-set: on the state and nothing else of the row. A tx ref already on another row loses it. -/
def casLate (late : OrderedMap String LateRow) (id : String) (allowed : List LateState) (target : LateState)
    (patch : LatePatch) : OrderedMap String LateRow × Option LateRow :=
  match casRow late id allowed patch with
  | none => (late, none)
  | some rec => (late.set id (rec.assign patch target), some (rec.assign patch target))

structure LateLedgerRow where
  auth_key : Option String
  tx_ref : String
  pending_id : String
  receipt_id : String
  amount : Option Amount
  payer : Option String
deriving DecidableEq

/-- One ledger row per auth key and per tx ref. -/
def appendLateLedger (rows : List LateLedgerRow) (row : LateLedgerRow) : List LateLedgerRow :=
  if rows.any fun r => (row.auth_key.any (· ≠ "") ∧ r.auth_key = row.auth_key)
    ∨ (row.tx_ref ≠ "" ∧ r.tx_ref = row.tx_ref)
  then rows else rows ++ [row]

/-! ## What a chain read answers -/

/-- The settlement a chain read describes. `tx` and `transaction` name it. -/
structure Chain where
  ok : Bool
  pending : Bool
  finalized : Bool
  network : Option String
  asset : Option String
  payTo : Option String
  payer : Option String
  authorizer : Option String
  amount : Option Amount
  transferCount : Option ℤ
  blockTimestamp : Option ℤ
  tx : Option String
  transaction : Option String
  scannedTo : Option String
  nonceUnused : Bool
deriving DecidableEq

/-! ## Operations -/

/-- The facts beside a spent transaction. -/
structure TxFacts where
  amount : Option Amount
  payer : Option String
  payTo : Option String
deriving DecidableEq

/-- The settlement kept beside a spent nonce. -/
structure SpentFacts where
  txRef : Option String
  amount : Option Amount
  payer : Option String
  payTo : Option String
  late : Bool

inductive Op
  | getLate (id : String)
  | casLate (id : String) (allowed : List LateState) (target : LateState) (patch : LatePatch)
  | appendLateLedger (row : LateLedgerRow)
  | isTxSpent (key : String)
  | reserveTx (key authKey owner : String) (leaseMs : ℤ)
  | releaseTx (key authKey owner : String)
  | markTxSpent (key : String) (facts : Option TxFacts)
  | markAuthSpent (key ref : String)
  | markSpent (nonce : String) (facts : SpentFacts)
  /-- `nowMs` -/
  | now
  /-- The chain read of a late row. -/
  | readChain (record : LateRow)
  | reorgGuard (record : LateRow) (chain : Chain)
  /-- The claims are computed from the row, the chain and the minute of issue. -/
  | signer (current : LateRow) (chain : Chain) (issuedAt : ℤ)
  | recordLedger (receipt : LateReceipt)
  | appendLog (record : LateRow) (digest : String)

/-- What an operation answers when it does not throw. -/
abbrev Res : Op → Type
  | .getLate _ | .casLate .. => Option LateRow
  | .isTxSpent _ | .reserveTx .. | .reorgGuard .. | .appendLog .. => Bool
  | .now => ℤ
  | .readChain _ => Chain
  | .signer .. => Option Jws
  | .appendLateLedger _ | .releaseTx .. | .markTxSpent .. | .markAuthSpent .. | .markSpent .. | .recordLedger _ => Unit

/-- The store, what left the process, and a history of two kinds of write. -/
structure World where
  late : OrderedMap String LateRow
  lateLedger : List LateLedgerRow
  reservations : TxReservation.Store TxFacts
  challenges : ChallengeNonce.Store Unit SpentFacts
  /-- Digests appended to the receipt log, by receipt id. -/
  log : List (String × String)
  /-- Receipts written to the usage ledger. -/
  ledger : List LateReceipt
  /-- History: every signature a write put on a row. -/
  persisted : List (String × Jws)

/-- What the outside adds to one operation. -/
structure Event where
  /-- The operation throws, after its effect or before it. -/
  fails : Option Bool
  time : ℤ
  chain : Chain
  guarded : Bool
  signature : Option Jws
  appended : Bool
  /-- An append that answers false has reached the log all the same. -/
  reached : Bool

/-- The signatures a write history gives one row, oldest first. -/
def World.persistedOn (w : World) (id : String) : List Jws := w.persisted.filterMap fun e =>
    if e.1 = id then some e.2 else none

/-- The signature a successful compare-and-set writes. -/
def newJws (w : World) (id : String) (allowed : List LateState) (patch : LatePatch) : Option Jws :=
  (casRow w.late id allowed patch).bind fun _ => patch.jws.join

def effect (w : World) (_ : ℕ) (o : Op) (e : Event) : World × Res o :=
  match o with
  | .getLate id => (w, w.late.lookup id)
  | .casLate id allowed target patch =>
    ({ w with
      late := (casLate w.late id allowed target patch).1
      persisted := w.persisted ++ (newJws w id allowed patch).toList.map (id, ·) },
      (casLate w.late id allowed target patch).2)
  | .appendLateLedger row => ({ w with lateLedger := appendLateLedger w.lateLedger row }, ())
  | .isTxSpent key => (w, TxReservation.isTxSpent w.reservations key)
  | .reserveTx key authKey owner leaseMs =>
    let (reservations, granted) := TxReservation.reserveTx w.reservations key authKey owner leaseMs e.time
    ({ w with reservations := reservations }, granted)
  | .releaseTx key authKey owner =>
    ({ w with reservations := (TxReservation.releaseTx w.reservations key authKey owner).1 }, ())
  | .markTxSpent key facts => ({ w with reservations := TxReservation.markTxSpent w.reservations key facts }, ())
  | .markAuthSpent key ref => ({ w with reservations := TxReservation.markAuthSpent w.reservations key ref }, ())
  | .markSpent nonce facts =>
    ({ w with challenges := ChallengeNonce.markSpent w.challenges nonce.toList (some facts) }, ())
  | .now => (w, e.time)
  | .readChain _ => (w, e.chain)
  | .reorgGuard .. => (w, e.guarded)
  | .signer .. => (w, e.signature)
  | .recordLedger receipt => ({ w with ledger := w.ledger ++ [receipt] }, ())
  | .appendLog record digest =>
    (if e.appended ∨ e.reached then { w with log := w.log ++ [(record.receipt_id, digest)] } else w, e.appended)

/-- One atomic operation of run `n`. -/
def exec (w : World) (n : ℕ) (o : Op) (e : Event) : World × Option (Res o) :=
  match e.fails with
  | none => ((effect w n o e).1, some (effect w n o e).2)
  | some true => ((effect w n o e).1, none)
  | some false => (w, none)

/-- A program over the store. -/
abbrev Prog := Interleaving.Prog Op Res

/-! ## What an operation changes -/

variable {e : Event} {patch : LatePatch} {allowed : List LateState} {o : Op} {late : OrderedMap String LateRow}
  {id key : String} {w : World} {n : ℕ}

theorem casRow_eq_some {rec : LateRow} : casRow late id allowed patch = some rec
      ↔ late.lookup id = some rec ∧ rec.state ∈ allowed ∧ txRefClash late id patch = false := by
  unfold casRow
  rw [Option.filter_eq_some_iff]
  simp

theorem lookup_casLate {target : LateState} (id' : String) : (casLate late id allowed target patch).1.lookup id'
      = if id' = id then (casLate late id allowed target patch).2.or (late.lookup id) else late.lookup id' := by
  unfold casLate
  cases casRow late id allowed patch with
  | none =>
    split_ifs with h
    · rw [h]
      rfl
    · rfl
  | some rec =>
    dsimp only
    rw [lookup_set]
    rfl

/-- The row an operation may write. -/
def Op.row : Op → Option String
  | .casLate id .. => some id
  | _ => none

theorem effect_late (h : o.row ≠ some id) :
    (effect w n o e).1.late.lookup id = w.late.lookup id ∧ (effect w n o e).1.persistedOn id = w.persistedOn id := by
  cases o with
  | casLate id' allowed target patch =>
    have hne : id ≠ id' := by
      rintro rfl
      exact h rfl
    refine ⟨?_, ?_⟩
    · dsimp only [effect]
      rw [lookup_casLate, if_neg hne]
    · unfold World.persistedOn
      dsimp only [effect]
      rw [List.filterMap_append, List.filterMap_map]
      have hnone : ((newJws w id' allowed patch).toList.filterMap
          ((fun e : String × Jws => if e.1 = id then some e.2 else none) ∘ (id', ·))) = [] := by
        rw [List.filterMap_eq_nil_iff]
        intro jws _
        exact if_neg (Ne.symm hne)
      rw [hnone, List.append_nil]
  | appendLog record digest =>
    dsimp only [effect]
    split_ifs <;> exact ⟨rfl, rfl⟩
  | _ => exact ⟨rfl, rfl⟩

/-- A successful compare-and-set assigns the patch, and its signature enters the history. -/
theorem effect_cas (w : World) (n : ℕ) (id : String) (allowed : List LateState) (target : LateState)
    (patch : LatePatch) (e : Event) : (effect w n (.casLate id allowed target patch) e).1.late.lookup id
        = ((casRow w.late id allowed patch).map fun rec => rec.assign patch target).or (w.late.lookup id)
      ∧ (effect w n (.casLate id allowed target patch) e).1.persistedOn id
        = w.persistedOn id ++ (newJws w id allowed patch).toList ∧ (effect w n (.casLate id allowed target patch) e).2
        = (casRow w.late id allowed patch).map fun rec => rec.assign patch target := by
  refine ⟨?_, ?_, ?_⟩
  · dsimp only [effect]
    rw [lookup_casLate, if_pos rfl]
    unfold casLate
    cases casRow w.late id allowed patch <;> rfl
  · unfold World.persistedOn
    dsimp only [effect]
    rw [List.filterMap_append, List.filterMap_map]
    congr 1
    cases newJws w id allowed patch with
    | none => rfl
    | some jws => simp
  · dsimp only [effect]
    unfold casLate
    cases casRow w.late id allowed patch <;> rfl

/-- The signature a row has. -/
def World.jwsOn (w : World) (id : String) : Option Jws := (w.late.lookup id).bind LateRow.jws

theorem exec_cases (w : World) (n : ℕ) (o : Op) (e : Event) :
    (exec w n o e = ((effect w n o e).1, some (effect w n o e).2) ∧ e.fails = none)
      ∨ (exec w n o e = ((effect w n o e).1, none) ∧ e.fails = some true)
      ∨ (exec w n o e = (w, none) ∧ e.fails = some false) := by
  unfold exec
  cases e.fails with
  | none => exact Or.inl ⟨rfl, rfl⟩
  | some took =>
    cases took with
    | true => exact Or.inr (Or.inl ⟨rfl, rfl⟩)
    | false => exact Or.inr (Or.inr ⟨rfl, rfl⟩)

theorem persistedOn_effect {jws : Jws} (h : jws ∈ w.persistedOn id) : jws ∈ (effect w n o e).1.persistedOn id := by
  by_cases hrow : o.row = some id
  · cases o with
    | casLate id' allowed target patch =>
      cases hrow
      rw [(effect_cas ..).2.1]
      exact List.mem_append_left _ h
    | _ => cases hrow
  · rw [(effect_late hrow).2]
    exact h

theorem exec_keeps (P : World → Prop) (hbefore : P w) (heffect : e.fails ≠ some false → P (effect w n o e).1) :
    P (exec w n o e).1 := by
  rcases exec_cases w n o e with ⟨hexec, hfails⟩ | ⟨hexec, hfails⟩ | ⟨hexec, -⟩
  · rw [hexec]
    exact heffect (by rw [hfails]; nofun)
  · rw [hexec]
    exact heffect (by rw [hfails]; decide)
  · rw [hexec]
    exact hbefore

end LateStore
