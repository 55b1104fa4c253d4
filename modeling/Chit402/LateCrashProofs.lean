import Chit402.CrashLogicProofs
import Chit402.LateMatchProofs
import Chit402.LateOnceProofs
import Chit402.LatePublicationProofs

/-! # Taking up a publication that was cut off

    A run is cut off after it has persisted its signature, and another run
    takes the row up.  Before the row is issued the second run publishes
    again, from facts the row kept from before the payment was sent; once it
    is issued the second run does nothing.  So what is left is what the
    uninterrupted run leaves exactly when those facts are the ones the chain
    read gave, or when the last of the spent marks had been made. -/

namespace LateCrash

open Interleaving CrashLogic LateStore LateIssue LatePublication OrderedMap

variable {rules : Rules} {payload : Jws → SignedClaims} {id : String} {chain facts : Chain}
    {w v : World} {n : ℕ} {o : Op}
  {e : Event}

/-! ## Operations that work -/

/-- An operation that works. The chain read gives the one answer, the signer signs the claims it is given. -/
def Works (payload : Jws → SignedClaims) (chain : Chain) (_ : World) (_ : ℕ) (o : Op) (e : Event) : Prop :=
  e.fails = none ∧ match o with
    | .readChain _ => e.chain = chain
    | .signer current facts _ => ∀ jws ∈ e.signature, payload jws = claimsFor current facts
    | .appendLog .. => e.appended = true
    | _ => True

theorem exec_of_works (h : Works payload chain w n o e) :
    exec w n o e = ((effect w n o e).1, some (effect w n o e).2) := by
  rcases exec_cases w n o e with ⟨hexec, -⟩ | ⟨-, hfails⟩ | ⟨-, hfails⟩
  · exact hexec
  · cases h.1.symm.trans hfails
  · cases h.1.symm.trans hfails

instance : Decidable (Works payload chain w n o e) :=
  match o with
  | .readChain _ => inferInstanceAs (Decidable (e.fails = none ∧ e.chain = chain))
  | .signer current facts _ =>
    inferInstanceAs (Decidable (e.fails = none ∧ ∀ jws ∈ e.signature, payload jws = claimsFor current facts))
  | .appendLog .. => inferInstanceAs (Decidable (e.fails = none ∧ e.appended = true))
  | .getLate _ | .casLate .. | .appendLateLedger _ | .isTxSpent _ | .reserveTx .. | .releaseTx ..
  | .markTxSpent .. | .markAuthSpent .. | .markSpent .. | .now | .reorgGuard .. | .recordLedger _ =>
    inferInstanceAs (Decidable (e.fails = none ∧ True))

/-- The operations that change a view. -/
def writesView : Op → Bool
  | .casLate .. | .appendLateLedger _ | .markTxSpent .. | .markAuthSpent .. | .markSpent ..
  | .appendLog .. => true
  | _ => false

theorem reserveTx_txFacts {φ : Type} (s : TxReservation.Store φ) (key authKey owner : String) (leaseMs now : ℤ) :
    (TxReservation.reserveTx s key authKey owner leaseMs now).1.txFacts = s.txFacts := by
  unfold TxReservation.reserveTx
  split_ifs <;> rfl

theorem releaseTx_txFacts {φ : Type} (s : TxReservation.Store φ) (key authKey owner : String) :
    (TxReservation.releaseTx s key authKey owner).1.txFacts = s.txFacts := by
  unfold TxReservation.releaseTx
  split
  · rfl
  · split <;> rfl

theorem view_quiet (h : writesView o = false) : viewOf id (effect w n o e).1 = viewOf id w := by
  cases o with
  | reserveTx key authKey owner leaseMs =>
    obtain ⟨htx, hauth⟩ := TxReservation.reserveTx_spent w.reservations key authKey owner leaseMs e.time
    unfold viewOf
    dsimp only [effect]
    rw [htx, hauth, reserveTx_txFacts]
  | releaseTx key authKey owner =>
    obtain ⟨htx, hauth⟩ := TxReservation.releaseTx_spent w.reservations key authKey owner
    unfold viewOf
    dsimp only [effect]
    rw [htx, hauth, releaseTx_txFacts]
  | casLate | appendLateLedger | markTxSpent | markAuthSpent | markSpent | appendLog => cases h
  | _ => rfl

variable {patch : LatePatch} {fresh : LateRow} {target : LateState} {allowed : List LateState} {text : Option String}
  {key : String} {f : String → Prog Unit}

/-- A compare-and-set on the row, which names no new reference. -/
theorem view_cas {row : LateRow} (hrow : (viewOf id w).row = some row) (hallowed : row.state ∈ allowed)
    (hpatch : patch.tx_ref.join = none) :
    viewOf id (effect w n (.casLate id allowed target patch) e).1
      = { viewOf id w with row := some (row.assign patch target) }
      ∧ (effect w n (.casLate id allowed target patch) e).2 = some (row.assign patch target) := by
  have hclash : txRefClash w.late id patch = false := by
    unfold txRefClash
    split
    · rename_i ref href
      rw [href] at hpatch
      cases hpatch
    · rfl
  have hcas : casRow w.late id allowed patch = some row := casRow_eq_some.2 ⟨hrow, hallowed, hclash⟩
  obtain ⟨hlate, -, hanswer⟩ := effect_cas w n id allowed target patch e
  rw [hcas] at hlate hanswer
  refine ⟨?_, hanswer⟩
  unfold viewOf
  rw [hlate]
  rfl

theorem view_cas_lost (hcas : casRow w.late id allowed patch = none) :
    viewOf id (effect w n (.casLate id allowed target patch) e).1 = viewOf id w
      ∧ (effect w n (.casLate id allowed target patch) e).2 = none := by
  obtain ⟨hlate, -, hanswer⟩ := effect_cas w n id allowed target patch e
  rw [hcas] at hlate hanswer
  refine ⟨?_, hanswer⟩
  unfold viewOf
  rw [hlate]
  rfl

theorem view_markTxSpent {txFacts : TxFacts} (hkey : key ≠ "") :
    viewOf id (effect w n (.markTxSpent key (some txFacts)) e).1 = { viewOf id w with
        txSpent := insert key (viewOf id w).txSpent
        txFacts := (viewOf id w).txFacts.set key txFacts } := by
  unfold viewOf
  dsimp only [effect, TxReservation.markTxSpent]
  rw [if_neg hkey]

theorem view_markAuthSpent {ref : String} (hkey : key ≠ "") : viewOf id (effect w n (.markAuthSpent key ref) e).1
      = { viewOf id w with authSpent := (viewOf id w).authSpent.set key (if ref = "" then none else some ref) } := by
  unfold viewOf
  dsimp only [effect, TxReservation.markAuthSpent]
  rw [if_neg hkey]

theorem view_markSpent {nonce : String} {facts : SpentFacts} : viewOf id (effect w n (.markSpent nonce facts) e).1
      = { viewOf id w with challenges :=
        ChallengeNonce.markSpent (viewOf id w).challenges nonce.toList (some facts) } := rfl

theorem view_appendLateLedger {row : LateLedgerRow} : viewOf id (effect w n (.appendLateLedger row) e).1
      = { viewOf id w with lateLedger := appendLateLedger (viewOf id w).lateLedger row } := rfl

theorem view_appendLog {record : LateRow} {digest : String} (happended : e.appended = true) :
    viewOf id (effect w n (.appendLog record digest) e).1
      = { viewOf id w with digests := insert (record.receipt_id, digest) (viewOf id w).digests } := by
  unfold viewOf
  dsimp only [effect]
  rw [if_pos (Or.inl happended)]
  congr 1
  ext entry
  simp [or_comm]

/-! ## The rest of a publication -/

/-- A signature, with the row it was put on. -/
structure Signing where
  row : LateRow
  jws : Jws

/-- A run signs once. -/
def Later (g g' : Option Signing) : Prop := g = none ∨ g = g'

abbrev LateCut {α : Type} (payload : Jws → SignedClaims) (chain : Chain) (n : ℕ) (crash : Option Signing → World → Prop)
    (fin : Option Signing → World → Option α → Prop) (g : Option Signing) (w : World) (p : Prog α) : Prop :=
  Cut exec (Works payload chain) n Later crash fin g w p

variable {α β : Type} {crash : Option Signing → World → Prop} {fin : Option Signing → World → Option α → Prop}
  {g : Option Signing}

theorem cut_next {f : Res o → Prog α} (hcrash : crash g w) (h : ∀ e, Works payload chain w n o e →
      LateCut payload chain n crash fin g (effect w n o e).1 (f (effect w n o e).2)) :
    LateCut payload chain n crash fin g w (Prog.call o >>= f) := by
  refine cut_call_bind hcrash ?_
  intro e he
  have hexec := exec_of_works he
  refine ⟨(effect w n o e).2, g, ?_, Or.inr rfl, ?_⟩
  · rw [hexec]
  · rw [hexec]
    exact h e he

theorem cut_whenText_bind {rest : Unit → Prog α}
    (hnone : firstOf [text] = none → LateCut payload chain n crash fin g w (rest ()))
    (hsome : ∀ found, firstOf [text] = some found → LateCut payload chain n crash fin g w (f found >>= rest)) :
    LateCut payload chain n crash fin g w (whenText text f >>= rest) := by
  unfold whenText
  split
  · rename_i found hfound
    exact hsome found hfound
  · rename_i hfound
    exact hnone hfound

theorem cut_whenText {fin : Option Signing → World → Option Unit → Prop}
    (hnone : firstOf [text] = none → LateCut payload chain n crash fin g w (pure ()))
    (hsome : ∀ found, firstOf [text] = some found → LateCut payload chain n crash fin g w (f found)) :
    LateCut payload chain n crash fin g w (whenText text f) := by
  unfold whenText
  split
  · rename_i found hfound
    exact hsome found hfound
  · rename_i hfound
    exact hnone hfound

/-- The last operation of a program. -/
theorem cut_last {fin : Option Signing → World → Option (Res o) → Prop} (hcrash : crash g w)
    (h : ∀ e, Works payload chain w n o e → crash g (effect w n o e).1
      ∧ fin g (effect w n o e).1 (some (effect w n o e).2)) : LateCut payload chain n crash fin g w (call o) := by
  refine ⟨hcrash, ?_⟩
  intro e he
  refine ⟨g, Or.inr rfl, ?_⟩
  rw [exec_of_works he]
  exact h e he

section Publication

variable {row row' : LateRow} {jws : Jws} {base : View}

/-- A view of an issued row whose marks are made as far as told. -/
theorem underWay_issued (hfollows : Follows row row') (hstate : row'.state = .issued)
    (hpublic : row'.public_receipt = some (publicLateReceipt rules id row facts jws))
    {challenges : ChallengeNonce.Store Unit SpentFacts} {authSpent : OrderedMap String (Option String)}
    {txSpent : Finset String} {txFacts : OrderedMap String TxFacts}
    (hview : viewOf id v = ⟨some row', ledgered rules id row facts base.lateLedger, logged rules row jws base.digests,
      challenges, authSpent, txSpent, txFacts⟩)
    (hchallenges : challenges = base.challenges ∨ challenges = nonceMarked rules row facts base.challenges)
    (hauthSpent : authSpent = base.authSpent ∨ authSpent = authMarked rules row facts base.authSpent)
    (htxSpent : txSpent = base.txSpent ∨ txSpent = txMarked rules row facts base.txSpent)
    (htxFacts : txFacts = base.txFacts ∨ txFacts = factsMarked rules row facts base.txFacts) :
    UnderWay rules id row jws facts base (viewOf id v) := by
  rw [hview]
  exact UnderWay.issued row' rfl hfollows hstate hpublic rfl rfl hchallenges hauthSpent htxSpent htxFacts

/-- The reference of an authorization mark, with the empty text for none. -/
theorem authRef_eq (row : LateRow) (facts : Chain) :
    (if ((ledgerRef rules row facts).or row.tx_ref).getD "" = "" then none
      else some (((ledgerRef rules row facts).or row.tx_ref).getD "")) = authRef rules row facts := by
  unfold authRef
  cases (ledgerRef rules row facts).or row.tx_ref with
  | none => rfl
  | some ref =>
    rw [Option.getD_some]
    symm
    split_ifs with hempty
    · rw [hempty]
      rfl
    · exact firstOf_single.2 ⟨rfl, hempty⟩

section Marks

variable {fin : Option Signing → World → Option Unit → Prop} (hfollows : Follows row row')
  (hcrash : ∀ v, UnderWay rules id row jws facts base (viewOf id v) → crash g v) (hstate : row'.state = .issued)
  (hpublic : row'.public_receipt = some (publicLateReceipt rules id row facts jws))

include hfollows hcrash hstate hpublic

/-- The last mark, with the two before it made. -/
theorem cut_txMark (hview : viewOf id v = ⟨some row', ledgered rules id row facts base.lateLedger,
    logged rules row jws base.digests,
      nonceMarked rules row facts base.challenges, authMarked rules row facts base.authSpent,
        base.txSpent, base.txFacts⟩)
    (hend : ∀ v, crash g v → Published rules id row jws facts base (viewOf id v) → fin g v (some ())) :
    LateCut payload chain n crash fin g v (whenText (ledgerRef rules row facts) fun key =>
      call (.markTxSpent key (some (txFactsOf row facts)))) := by
  have hcut : crash g v := hcrash v (underWay_issued hfollows hstate hpublic hview (Or.inr rfl) (Or.inr rfl)
    (Or.inl rfl) (Or.inl rfl))
  refine cut_whenText ?_ ?_
  · intro hnone
    have href : refOf rules row facts = none := hnone
    refine cut_pure hcut (hend v hcut ?_)
    rw [hview]
    refine ⟨hpublic, rfl, rfl, rfl, rfl, ?_, ?_⟩
    · unfold txMarked
      rw [href]
    · unfold factsMarked
      rw [href]
  · intro key hkey
    have href : refOf rules row facts = some key := hkey
    refine cut_last hcut ?_
    intro e _
    have hmarked : viewOf id (effect v n (.markTxSpent key (some (txFactsOf row facts))) e).1
        = ⟨some row', ledgered rules id row facts base.lateLedger, logged rules row jws base.digests,
          nonceMarked rules row facts base.challenges, authMarked rules row facts base.authSpent,
          txMarked rules row facts base.txSpent, factsMarked rules row facts base.txFacts⟩ := by
      rw [view_markTxSpent (refOf_ne_empty href), hview]
      unfold txMarked factsMarked
      rw [href]
    have hnow := hcrash _ (underWay_issued hfollows hstate hpublic hmarked (Or.inr rfl) (Or.inr rfl) (Or.inr rfl)
      (Or.inr rfl))
    refine ⟨hnow, hend _ hnow ?_⟩
    rw [hmarked]
    exact ⟨hpublic, rfl, rfl, rfl, rfl, rfl, rfl⟩

/-- The second mark and the last. -/
theorem cut_authMark (hview : viewOf id v = ⟨some row', ledgered rules id row facts base.lateLedger,
    logged rules row jws base.digests,
      nonceMarked rules row facts base.challenges, base.authSpent, base.txSpent, base.txFacts⟩)
    (hend : ∀ v, crash g v → Published rules id row jws facts base (viewOf id v) → fin g v (some ())) :
    LateCut payload chain n crash fin g v (do
      whenText row.auth_key fun auth_key =>
        call (.markAuthSpent auth_key (((ledgerRef rules row facts).or row.tx_ref).getD ""))
      whenText (ledgerRef rules row facts) fun key => call (.markTxSpent key (some (txFactsOf row facts)))) := by
  have hcut : crash g v := hcrash v (underWay_issued hfollows hstate hpublic hview (Or.inr rfl) (Or.inl rfl)
    (Or.inl rfl) (Or.inl rfl))
  refine cut_whenText_bind ?_ ?_
  · intro hnone
    refine cut_txMark hfollows hcrash hstate hpublic ?_ hend
    rw [hview]
    unfold authMarked
    rw [hnone]
  · intro auth_key hkey
    refine cut_next hcut ?_
    intro e _
    refine cut_txMark hfollows hcrash hstate hpublic ?_ hend
    rw [view_markAuthSpent (firstOf_single.1 hkey).2, hview, authRef_eq]
    unfold authMarked
    rw [hkey]

/-- Once the row is issued, the marks come one by one. -/
theorem cut_markIssued (hview : viewOf id v
    = ⟨some row', ledgered rules id row facts base.lateLedger, logged rules row jws base.digests,
      base.challenges, base.authSpent, base.txSpent, base.txFacts⟩)
    (hend : ∀ v, crash g v → Published rules id row jws facts base (viewOf id v) → fin g v (some ())) :
    LateCut payload chain n crash fin g v (markIssued row facts (ledgerRef rules row facts)) := by
  have hcut : crash g v := hcrash v (underWay_issued hfollows hstate hpublic hview (Or.inl rfl) (Or.inl rfl)
    (Or.inl rfl) (Or.inl rfl))
  unfold markIssued
  refine cut_whenText_bind ?_ ?_
  · intro hnone
    refine cut_authMark hfollows hcrash hstate hpublic ?_ hend
    rw [hview]
    unfold nonceMarked
    rw [hnone]
  · intro nonce hnonce
    refine cut_next hcut ?_
    intro e _
    refine cut_authMark hfollows hcrash hstate hpublic ?_ hend
    rw [view_markSpent, hview]
    unfold nonceMarked
    rw [hnonce]
    rfl

end Marks

theorem markIssued_follows (h : Follows row fresh) :
    markIssued fresh facts (ledgerRef rules fresh facts) = markIssued row facts (ledgerRef rules row facts) := by
  obtain ⟨state, public_receipt, recorded, appended, served, rfl⟩ := h
  rfl

theorem underWay_pending (hfollows : Follows row row') (hstate : row'.state = .issuing)
    (hlog : row'.log_appended = false)
    {lateLedger : List LateLedgerRow} {digests : Set (String × String)}
    (hview : viewOf id v = ⟨some row', lateLedger, digests, base.challenges, base.authSpent,
      base.txSpent, base.txFacts⟩)
    (hlateLedger : lateLedger = base.lateLedger ∨ lateLedger = ledgered rules id row facts base.lateLedger)
    (hdigests : digests = base.digests ∨ digests = logged rules row jws base.digests) :
    UnderWay rules id row jws facts base (viewOf id v) := by
  rw [hview]
  exact UnderWay.pending row' rfl hfollows hstate hlog hlateLedger hdigests rfl rfl rfl rfl

theorem follows_issued (h : Follows row row') (served : Bool) :
    Follows row (row'.assign { log_appended := some true, served := some served } .issued) := by
  obtain ⟨state, public_receipt, recorded, appended, served', rfl⟩ := h
  exact ⟨_, _, _, _, _, rfl⟩

section Leaf

variable {fin : Option Signing → World → Option LateAnswer → Prop} (hfollows : Follows row row')
  (hfresh : Follows row fresh) (hunlogged : fresh.log_appended = false)
  (hcrash : ∀ v, UnderWay rules id row jws facts base (viewOf id v) → crash g v) (hstate : row'.state = .issuing)
  (hlog : row'.log_appended = false) (hpublic : row'.public_receipt = some (publicLateReceipt rules id row facts jws))
  (hend : ∀ v a, crash g v → Published rules id row jws facts base (viewOf id v) → fin g v (some a))

include hfollows hfresh hunlogged hcrash hstate hlog hpublic hend

/-- The log, the last compare-and-set and the marks. -/
theorem cut_publishLeaf (hview : viewOf id v
    = ⟨some row', ledgered rules id row facts base.lateLedger, base.digests, base.challenges,
      base.authSpent, base.txSpent, base.txFacts⟩) :
    LateCut payload chain n crash fin g v (do
      let logged ← appendLeaf fresh (rules.sha256 jws)
      if ¬ logged then pure { pending := true }
      else do
        let _ ← call (.casLate id [.issuing, .confirmed] .issued
          { log_appended := some true, served := some fresh.served })
        markIssued fresh facts (ledgerRef rules fresh facts)
        pure { jws := some jws, served := fresh.served }) := by
  have hreceipt : fresh.receipt_id = row.receipt_id := by
    obtain ⟨state, public_receipt, recorded, appended, served, rfl⟩ := hfresh
    rfl
  rw [markIssued_follows hfresh]
  unfold appendLeaf
  rw [if_neg (by rw [hunlogged]; nofun)]
  refine cut_next (hcrash v (underWay_pending hfollows hstate hlog hview (Or.inr rfl) (Or.inl rfl))) ?_
  intro e he
  have happended : (effect v n (.appendLog fresh (rules.sha256 jws)) e).2 = true := he.2
  rw [if_neg (by rw [happended]; nofun)]
  have hlogged : viewOf id (effect v n (.appendLog fresh (rules.sha256 jws)) e).1
      = ⟨some row', ledgered rules id row facts base.lateLedger, logged rules row jws base.digests, base.challenges,
        base.authSpent, base.txSpent, base.txFacts⟩ := by
    rw [view_appendLog he.2, hview, hreceipt]
    rfl
  refine cut_next (hcrash _ (underWay_pending hfollows hstate hlog hlogged (Or.inr rfl) (Or.inr rfl))) ?_
  intro e' _
  have hthere : (viewOf id (effect v n (.appendLog fresh (rules.sha256 jws)) e).1).row = some row' := by
    rw [hlogged]
  have hin : row'.state ∈ [LateState.issuing, .confirmed] := by
    rw [hstate]
    decide
  refine cut_bind (cut_markIssued (follows_issued hfollows fresh.served) hcrash rfl hpublic ?_ ?_)
  · rw [(view_cas hthere hin rfl).1, hlogged]
  · exact fun v hcut hpublished => cut_pure hcut (hend v _ hcut hpublished)

/-- The ledger row, and what follows it. -/
theorem cut_publishLogged (hview : viewOf id v = { base with row := some row' }) :
    LateCut payload chain n crash fin g v (publishLogged rules id fresh jws facts) := by
  have href : ledgerRef rules fresh facts = ledgerRef rules row facts := by
    obtain ⟨state, public_receipt, recorded, appended, served, rfl⟩ := hfresh
    rfl
  have hrow : ∀ ref, (⟨fresh.auth_key, ref, id, fresh.receipt_id, facts.amount, facts.payer⟩ : LateLedgerRow)
      = ⟨row.auth_key, ref, id, row.receipt_id, facts.amount, facts.payer⟩ := by
    obtain ⟨state, public_receipt, recorded, appended, served, rfl⟩ := hfresh
    exact fun _ => rfl
  unfold publishLogged
  refine cut_whenText_bind ?_ ?_
  · intro hnone
    refine cut_publishLeaf hfollows hfresh hunlogged hcrash hstate hlog hpublic hend ?_
    rw [href] at hnone
    have hsame : ledgered rules id row facts base.lateLedger = base.lateLedger := by
      unfold ledgered refOf
      rw [hnone]
    rw [hview, hsame]
  · intro ref hsome
    refine cut_next (hcrash v (underWay_pending hfollows hstate hlog hview (Or.inl rfl) (Or.inl rfl))) ?_
    intro e _
    refine cut_publishLeaf hfollows hfresh hunlogged hcrash hstate hlog hpublic hend ?_
    rw [href] at hsome
    have hsame : ledgered rules id row facts base.lateLedger = appendLateLedger base.lateLedger
        ⟨row.auth_key, ref, id, row.receipt_id, facts.amount, facts.payer⟩ := by
      unfold ledgered refOf
      rw [hsome]
    rw [view_appendLateLedger, hview, hrow, hsame]

end Leaf

theorem receiptIdOf_signed (h : row.receipt_id ≠ "") : receiptIdOf id row = row.receipt_id := if_neg h

theorem follows_shown (h : Follows row row') (hstate : row'.state = .issuing) (hid : row.receipt_id ≠ "") :
    Follows row (row'.assign
      { public_receipt := some (publicLateReceipt rules id row facts jws)
        receipt_id := some (publicLateReceipt rules id row facts jws).receipt_id } row'.state) := by
  obtain ⟨state, public_receipt, recorded, appended, served, rfl⟩ := h
  refine ⟨state, some (publicLateReceipt rules id row facts jws), recorded, appended, served, ?_⟩
  have hsame : (publicLateReceipt rules id row facts jws).receipt_id = row.receipt_id := receiptIdOf_signed hid
  rw [hsame]
  rfl

theorem follows_recorded (h : Follows row row') (state : LateState) :
    Follows row (row'.assign { ledger_recorded := some true } state) := by
  obtain ⟨state', public_receipt, recorded, appended, served, rfl⟩ := h
  exact ⟨_, _, _, _, _, rfl⟩

/-- The usage ledger, and what follows it, once the row shows its receipt. -/
theorem cut_publishShown {shown : LateRow} {fin : Option Signing → World → Option LateAnswer → Prop}
    (hshows : Follows row shown) (hfollows : Follows row fresh)
    (hcrash : ∀ v, UnderWay rules id row jws facts base (viewOf id v) → crash g v) (hstate : fresh.state = .issuing)
    (hlog : fresh.log_appended = false) (hstate' : shown.state = .issuing) (hlog' : shown.log_appended = false)
    (hpublic : shown.public_receipt = some (publicLateReceipt rules id row facts jws))
    (hview : viewOf id v = { base with row := some shown })
    (hend : ∀ v a, crash g v → Published rules id row jws facts base (viewOf id v) → fin g v (some a)) :
    LateCut payload chain n crash fin g v (do
      if fresh.ledger_recorded then publishLogged rules id fresh jws facts
      else if ← (attempt do
          call (.recordLedger (publicLateReceipt rules id row facts jws))
          let _ ← call (.casLate id [.issuing, .confirmed, .issued] fresh.state { ledger_recorded := some true })) then
        publishLogged rules id fresh jws facts
      else pure { pending := true }) := by
  split_ifs
  · exact cut_publishLogged hshows hfollows hlog hcrash hstate' hlog' hpublic hend hview
  · unfold attempt
    refine cut_bind (cut_orElse (cut_bind ?_))
    refine cut_next (hcrash v (underWay_pending hshows hstate' hlog' hview (Or.inl rfl) (Or.inl rfl))) ?_
    intro e _
    have hledger : viewOf id (effect v n (.recordLedger (publicLateReceipt rules id row facts jws)) e).1
        = { base with row := some shown } := hview
    refine cut_next (hcrash _ (underWay_pending hshows hstate' hlog' hledger (Or.inl rfl) (Or.inl rfl))) ?_
    intro e' _
    have hin : shown.state ∈ [LateState.issuing, .confirmed, .issued] := by
      rw [hstate']
      decide
    have hrecorded : viewOf id (effect (effect v n (.recordLedger (publicLateReceipt rules id row facts jws)) e).1 n
        (.casLate id [.issuing, .confirmed, .issued] fresh.state { ledger_recorded := some true }) e').1
        = { base with row := some (shown.assign { ledger_recorded := some true } fresh.state) } := by
      rw [(view_cas (by rw [hledger]) hin rfl).1, hledger]
    have hkeeps := follows_recorded hshows fresh.state
    have hcut := hcrash _ (underWay_pending hkeeps hstate hlog' hrecorded (Or.inl rfl) (Or.inl rfl))
    refine cut_pure hcut (cut_pure hcut ?_)
    exact cut_publishLogged hkeeps hfollows hlog hcrash hstate hlog' hpublic hend hrecorded

/-- **THE REST OF A PUBLICATION**: wherever it is cut off it is under way, and at its end it has left all of it. -/
theorem cut_publishSigned {fin : Option Signing → World → Option LateAnswer → Prop} (hid : row.receipt_id ≠ "")
    (hfollows : Follows row fresh) (hcrash : ∀ v, UnderWay rules id row jws facts base (viewOf id v) → crash g v)
    (hstate : fresh.state = .issuing) (hlog : fresh.log_appended = false)
    (hview : viewOf id v = { base with row := some fresh })
    (hend : ∀ v a, crash g v → Published rules id row jws facts base (viewOf id v) → fin g v (some a)) :
    LateCut payload chain n crash fin g v (publishSigned rules id fresh jws facts) := by
  have hreceipt : publicLateReceipt rules id fresh facts jws = publicLateReceipt rules id row facts jws := by
    obtain ⟨state, public_receipt, recorded, appended, served, rfl⟩ := hfollows
    rfl
  have hin : fresh.state ∈ [LateState.issuing, .confirmed, .issued] := by
    rw [hstate]
    decide
  unfold publishSigned
  dsimp only
  rw [hreceipt]
  refine cut_next (hcrash v (underWay_pending hfollows hstate hlog hview (Or.inl rfl) (Or.inl rfl))) ?_
  intro e _
  refine cut_publishShown (follows_shown hfollows hstate hid) hfollows hcrash hstate hlog hstate hlog rfl ?_ hend
  rw [(view_cas (by rw [hview]) hin rfl).1, hview]

end Publication

end LateCrash
