import Chit402.LateCrashProofs

/-! # A late run alone

    Until it has persisted a signature a run alone leaves the public side of
    its row as it was.  From then on it publishes, from the facts of the
    chain read it won the row on.  Another run that takes the row up later
    finds it signed, or issued. -/

namespace LateResume

open Interleaving CrashLogic LateStore LateIssue LateMatch LatePublication LateCrash

variable {rules : Rules} {payload : Jws → SignedClaims} {id : String} {chain : Chain} {w v : World}
    {n : ℕ} {deps : Deps}

/-! ## Before the signature -/

/-- The row is unsigned, and nothing public has changed. -/
structure At (id : String) (w v : World) (row : LateRow) : Prop where
  unsigned : row.jws = none
  unlogged : row.log_appended = false
  view : viewOf id v = { viewOf id w with row := some row }

/-- A signature as a run persists it: on a row it won on the chain read, over the claims of that read. -/
structure Signed (payload : Jws → SignedClaims) (chain : Chain) (s : Signing) : Prop where
  jws : s.row.jws = some s.jws
  state : s.row.state = .issuing
  unlogged : s.row.log_appended = false
  receiptId : s.row.receipt_id ≠ ""
  named : Named s.row chain
  claims : payload s.jws = claimsFor s.row (wonChain s.row chain)

def CutOff (rules : Rules) (payload : Jws → SignedClaims) (id : String) (chain : Chain) (w : World) :
    Option Signing → World → Prop
  | none, v => ∃ row, At id w v row
  | some s, v => Signed payload chain s
      ∧ UnderWay rules id s.row s.jws (wonChain s.row chain) (viewOf id w) (viewOf id v)

/-- Where the run can end. -/
def Finished (rules : Rules) (id : String) (chain : Chain) (w : World) : Option Signing → World →
    Option LateAnswer → Prop
  | none, _, _ => True
  | some s, v, r => r.isSome ∧ Published rules id s.row s.jws (wonChain s.row chain) (viewOf id w) (viewOf id v)

abbrev Alone (rules : Rules) (payload : Jws → SignedClaims) (id : String) (chain : Chain) (n : ℕ) (w : World)
    (g : Option Signing) (v : World) (p : Prog LateAnswer) : Prop :=
  LateCut payload chain n (CutOff rules payload id chain w) (Finished rules id chain w) g v p

variable {α : Type} {fin : Option Signing → World → Option α → Prop} {row : LateRow}

theorem alone_pure (h : At id w v row) (a : LateAnswer) : Alone rules payload id chain n w none v (pure a) :=
  cut_pure ⟨row, h⟩ trivial

theorem early_next {o : Op} {f : Res o → Prog α} (hquiet : writesView o = false) (h : At id w v row)
    (hnext : ∀ e, Works payload chain v n o e → At id w (effect v n o e).1 row →
      LateCut payload chain n (CutOff rules payload id chain w) fin none (effect v n o e).1 (f (effect v n o e).2)) :
    LateCut payload chain n (CutOff rules payload id chain w) fin none v (Prog.call o >>= f) := by
  refine cut_next ⟨row, h⟩ ?_
  intro e he
  refine hnext e he ⟨h.unsigned, h.unlogged, ?_⟩
  rw [view_quiet hquiet]
  exact h.view

theorem lookup_of_view {view : View} (h : viewOf id v = { view with row := some row }) : v.late.lookup id = some row :=
  congrArg View.row h

variable {facts : Chain} {deps' : Deps} {patch : LatePatch} {copy record : LateRow} {target : LateState}
  {allowed : List LateState} {f : Option LateRow → Prog α} {g : Option Signing} {v' : World} {fuel : ℕ} {now : ℤ}

theorem early_getLate (h : At id w v row)
    (hnext : LateCut payload chain n (CutOff rules payload id chain w) fin none v (f (some row))) :
    LateCut payload chain n (CutOff rules payload id chain w) fin none v (Prog.call (.getLate id) >>= f) := by
  refine cut_next ⟨row, h⟩ ?_
  intro e _
  have hanswer : (effect v n (.getLate id) e).2 = some row := lookup_of_view h.view
  rw [hanswer]
  exact hnext

theorem early_present {f : LateRow → Prog α} (h : At id w v row)
    (hnext : LateCut payload chain n (CutOff rules payload id chain w) fin none v (f row)) :
    LateCut payload chain n (CutOff rules payload id chain w) fin none v
      (Prog.call (.getLate id) >>= fun row => present row >>= f) :=
  early_getLate h hnext

theorem At.assign (h : At id w v row) (hjws : patch.jws.join = none) (hlog : patch.log_appended = none)
    (hview : viewOf id v' = { viewOf id v with row := some (row.assign patch target) }) :
    At id w v' (row.assign patch target) := by
  constructor
  case unsigned =>
    show patch.jws.getD row.jws = none
    cases hpatch : patch.jws with
    | none => exact h.unsigned
    | some jws =>
      rw [hpatch] at hjws
      exact hjws
  case unlogged =>
    show patch.log_appended.getD row.log_appended = false
    rw [hlog]
    exact h.unlogged
  case view => rw [hview, h.view]

/-- A compare-and-set that takes. -/
theorem early_write (hallowed : row.state ∈ allowed) (htx : patch.tx_ref.join = none) (hjws : patch.jws.join = none)
    (hlog : patch.log_appended = none) (h : At id w v row) (hnext : ∀ v', At id w v' (row.assign patch target) →
      LateCut payload chain n (CutOff rules payload id chain w) fin none v' (f (some (row.assign patch target)))) :
    LateCut payload chain n (CutOff rules payload id chain w) fin none v
      (Prog.call (.casLate id allowed target patch) >>= f) := by
  refine cut_next ⟨row, h⟩ ?_
  intro e _
  have htaken : viewOf id (effect v n (.casLate id allowed target patch) e).1
        = { viewOf id v with row := some (row.assign patch target) }
      ∧ (effect v n (.casLate id allowed target patch) e).2 = some (row.assign patch target) :=
    view_cas (lookup_of_view h.view) hallowed htx
  rw [htaken.2]
  exact hnext _ (h.assign hjws hlog htaken.1)

/-- A compare-and-set that writes no signature: it takes, or it loses. -/
theorem early_cas (hjws : patch.jws.join = none) (hlog : patch.log_appended = none) (h : At id w v row)
    (htaken : ∀ v', At id w v' (row.assign patch target) →
      LateCut payload chain n (CutOff rules payload id chain w) fin none v' (f (some (row.assign patch target))))
    (hlost : ∀ v', At id w v' row → LateCut payload chain n (CutOff rules payload id chain w) fin none v' (f none)) :
    LateCut payload chain n (CutOff rules payload id chain w) fin none v
      (Prog.call (.casLate id allowed target patch) >>= f) := by
  refine cut_next ⟨row, h⟩ ?_
  intro e _
  cases hcas : casRow v.late id allowed patch with
  | none =>
    have hsame : viewOf id (effect v n (.casLate id allowed target patch) e).1 = viewOf id v
        ∧ (effect v n (.casLate id allowed target patch) e).2 = none := view_cas_lost hcas
    rw [hsame.2]
    exact hlost _ ⟨h.unsigned, h.unlogged, hsame.1.trans h.view⟩
  | some rec =>
    obtain ⟨hlate, -, hanswer⟩ := effect_cas v n id allowed target patch e
    cases (casRow_eq_some.1 hcas).1.symm.trans (lookup_of_view h.view)
    rw [hcas] at hlate hanswer
    rw [hanswer]
    refine htaken _ (h.assign hjws hlog ?_)
    unfold viewOf
    rw [hlate]
    rfl

/-- A compare-and-set whose answer is not looked at. -/
theorem early_cas_either {rest : Prog α} (hjws : patch.jws.join = none) (hlog : patch.log_appended = none)
    (h : At id w v row) (hnext : ∀ v' row', At id w v' row' → (row' = row.assign patch target ∨ row' = row) →
      LateCut payload chain n (CutOff rules payload id chain w) fin none v' rest) :
    LateCut payload chain n (CutOff rules payload id chain w) fin none v
      (Prog.call (.casLate id allowed target patch) >>= fun _ => rest) :=
  early_cas hjws hlog h (fun v' hat => hnext v' _ hat (Or.inl rfl)) fun v' hat => hnext v' _ hat (Or.inr rfl)

/-! ## The publication of a won row -/

/-- The rest of a publication, read again from the signed row. -/
theorem alone_signed {s : Signing} (hs : Signed payload chain s) (hfacts : facts = wonChain s.row chain)
    (hview : viewOf id v = { viewOf id w with row := some s.row }) :
    Alone rules payload id chain n w (some s) v (publishIssued rules deps' id facts (fuel + 1) record) := by
  have hfollows : Follows s.row s.row := ⟨_, _, _, _, _, rfl⟩
  have hcrash : ∀ v, UnderWay rules id s.row s.jws facts (viewOf id w) (viewOf id v) →
      CutOff rules payload id chain w (some s) v := by
    intro v hunderWay
    rw [hfacts] at hunderWay
    exact ⟨hs, hunderWay⟩
  unfold publishIssued
  refine cut_next (hcrash v (underWay_pending hfollows hs.state hs.unlogged hview (Or.inl rfl) (Or.inl rfl))) ?_
  intro e _
  have hanswer : (effect v n (.getLate id) e).2 = some s.row := lookup_of_view hview
  rw [hanswer]
  dsimp only [Option.getD_some]
  rw [hs.jws]
  dsimp only
  rw [if_neg (by rw [hs.unlogged]; exact fun hc => Bool.false_ne_true hc.1)]
  refine cut_publishSigned hs.receiptId hfollows hcrash hs.state hs.unlogged hview ?_
  intro v a _ hpublished
  rw [hfacts] at hpublished
  exact ⟨rfl, hpublished⟩

/-- The signature is persisted, and the publication goes on from it. -/
theorem alone_persist {fuel : ℕ} {deps' : Deps} {facts : Chain} {jws : Jws} {patch : LatePatch} (h : At id w v row)
    (hstate : row.state = .issuing) (hid : row.receipt_id ≠ "") (hnamed : Named row chain)
    (hfacts : facts = wonChain row chain) (hclaims : payload jws = claimsFor row facts) (htx : patch.tx_ref = none)
    (hhint : patch.tx_hint = none) (hjws : patch.jws = some (some jws)) (hlog : patch.log_appended = none)
    (hreceipt : patch.receipt_id = some row.receipt_id) :
    Alone rules payload id chain n w none v (do
      let persisted ← call (.casLate id [.issuing] .issuing patch)
      match persisted.bind LateRow.jws with
      | none => pure { pending := true }
      | some _ => do
        let row ← present (← call (.getLate id))
        publishIssued rules deps' id facts (fuel + 1) row) := by
  have hhints : (row.assign patch .issuing).tx_hint = row.tx_hint := by
    show patch.tx_hint.getD row.tx_hint = row.tx_hint
    rw [hhint]
    rfl
  have hsame : wonChain (row.assign patch .issuing) chain = wonChain row chain := by
    unfold wonChain txOf
    rw [hhints]
  have hreceipts : (row.assign patch .issuing).receipt_id = row.receipt_id := by
    show patch.receipt_id.getD row.receipt_id = row.receipt_id
    rw [hreceipt]
    rfl
  have hpersisted : (row.assign patch .issuing).jws = some jws := by
    show patch.jws.getD row.jws = some jws
    rw [hjws]
    rfl
  have hs : Signed payload chain ⟨row.assign patch .issuing, jws⟩ := by
    constructor
    case jws => exact hpersisted
    case state => rfl
    case unlogged =>
      show patch.log_appended.getD row.log_appended = false
      rw [hlog]
      exact h.unlogged
    case receiptId =>
      rw [hreceipts]
      exact hid
    case named => exact hnamed.assign
    case claims =>
      rw [hclaims, hfacts]
      dsimp only
      rw [hsame]
      unfold claimsFor
      rw [hreceipts]
      rfl
  have hin : row.state ∈ [LateState.issuing] := by
    rw [hstate]
    decide
  refine cut_call_bind ⟨row, h⟩ ?_
  intro e he
  have htaken : viewOf id (effect v n (.casLate id [.issuing] .issuing patch) e).1
        = { viewOf id v with row := some (row.assign patch .issuing) }
      ∧ (effect v n (.casLate id [.issuing] .issuing patch) e).2 = some (row.assign patch .issuing) :=
    view_cas (lookup_of_view h.view) hin (by rw [htx]; rfl)
  have hview : viewOf id (effect v n (.casLate id [.issuing] .issuing patch) e).1
      = { viewOf id w with row := some (row.assign patch .issuing) } := by
    rw [htaken.1, h.view]
  refine ⟨some (row.assign patch .issuing), some ⟨row.assign patch .issuing, jws⟩, ?_, Or.inl rfl, ?_⟩
  · rw [exec_of_works he, htaken.2]
  · rw [exec_of_works he, Option.bind_some, hpersisted]
    dsimp only
    have hfollows : Follows (row.assign patch .issuing) (row.assign patch .issuing) := ⟨_, _, _, _, _, rfl⟩
    refine cut_next ⟨hs, underWay_pending hfollows hs.state hs.unlogged hview (Or.inl rfl) (Or.inl rfl)⟩ ?_
    intro e' _
    have hanswer : (effect (effect v n (.casLate id [.issuing] .issuing patch) e).1 n (.getLate id) e').2
        = some (row.assign patch .issuing) := lookup_of_view hview
    rw [hanswer]
    exact alone_signed hs (hfacts.trans hsame.symm) hview

/-- The run that won the row publishes it, and persists the signature on its way. -/
theorem alone_publishIssued (h : At id w v row) (hstate : row.state = .issuing) (hnamed : Named row chain)
    (hfacts : facts = wonChain row chain) :
    Alone rules payload id chain n w none v (publishIssued rules deps' id facts (fuel + 2) record) := by
  have hid : receiptIdOf id row ≠ "" := by
    unfold receiptIdOf
    split_ifs with hempty
    · simp
    · exact hempty
  have hin : row.state ∈ [LateState.issuing] := by
    rw [hstate]
    decide
  unfold publishIssued
  refine early_getLate h ?_
  dsimp only [Option.getD_some]
  rw [h.unsigned]
  refine early_next rfl h fun e _ hat => ?_
  refine early_write hin rfl rfl rfl hat fun v₁ hat₁ => ?_
  refine early_present hat₁ ?_
  have hnamed₁ : Named (row.assign { receipt_id := some (receiptIdOf id row) } .issuing) chain :=
    hnamed.assign
  have hfacts₁ : facts = wonChain (row.assign { receipt_id := some (receiptIdOf id row) } .issuing) chain := hfacts
  refine cut_bind ?_
  unfold sign
  refine cut_orElse ?_
  have hfailed : ∀ {v'}, At id w v' (row.assign { receipt_id := some (receiptIdOf id row) } .issuing) →
      Alone rules payload id chain n w none v' (do
        let _ ← call (.casLate id [.issuing] .confirmed
          { lease_owner := some none, lease_until := some 0, jws := some none })
        pure { pending := true, signerFailed := true }) := fun hat =>
    early_write (show LateState.issuing ∈ [LateState.issuing] by decide) rfl rfl rfl hat fun _ hat' => alone_pure hat' _
  split_ifs
  · refine early_next rfl hat₁ fun e₁ he₁ hat₂ => ?_
    cases hsigned : (effect v₁ n (.signer (row.assign { receipt_id := some (receiptIdOf id row) } .issuing) facts
        ((effect v n .now e).2 / 60000)) e₁).2 with
    | none => exact ⟨⟨_, hat₂⟩, cut_pure ⟨_, hat₂⟩ (hfailed hat₂)⟩
    | some jws =>
      refine cut_pure ⟨_, hat₂⟩ ?_
      exact alone_persist hat₂ rfl hid hnamed₁ hfacts₁ (he₁.2 jws hsigned) rfl rfl rfl rfl rfl
  · exact ⟨⟨_, hat₁⟩, cut_pure ⟨_, hat₁⟩ (hfailed hat₁)⟩

/-- An operation that changes no view keeps where the run can be cut off, and end. -/
theorem cutOff_view (hview : viewOf id v' = viewOf id v) (h : CutOff rules payload id chain w g v) :
    CutOff rules payload id chain w g v' := by
  cases g with
  | none =>
    obtain ⟨row, hunsigned, hunlogged, hat⟩ := h
    exact ⟨row, hunsigned, hunlogged, hview.trans hat⟩
  | some s =>
    obtain ⟨hs, hunderWay⟩ := h
    refine ⟨hs, ?_⟩
    rw [hview]
    exact hunderWay

theorem finished_view {r : Option LateAnswer} (hview : viewOf id v' = viewOf id v)
    (h : Finished rules id chain w g v r) : Finished rules id chain w g v' r := by
  cases g with
  | none => trivial
  | some s =>
    obtain ⟨hsome, hpublished⟩ := h
    refine ⟨hsome, ?_⟩
    rw [hview]
    exact hpublished

/-- The release after a publication changes nothing public. -/
theorem alone_releaseUnspent {g : Option Signing} {r : Option LateAnswer} {ref authKey reserveOwner : String}
    (hcrash : CutOff rules payload id chain w g v) (hfin : Finished rules id chain w g v r) :
    LateCut payload chain n (CutOff rules payload id chain w) (fun g v r' => match r' with
      | some _ => Finished rules id chain w g v r
      | none => Finished rules id chain w g v none) g v (releaseUnspent ref authKey reserveOwner) := by
  unfold releaseUnspent attempt
  refine cut_bind (cut_orElse (cut_bind ?_))
  refine cut_next hcrash ?_
  intro e _
  have hview : viewOf id (effect v n (.isTxSpent ref) e).1 = viewOf id v := view_quiet rfl
  have hcrash' : CutOff rules payload id chain w g (effect v n (.isTxSpent ref) e).1 := cutOff_view hview hcrash
  split_ifs
  · exact cut_pure hcrash' (cut_pure hcrash' (cut_pure hcrash' (finished_view hview hfin)))
  · refine cut_last hcrash' ?_
    intro e' _
    have hview' : viewOf id (effect (effect v n (.isTxSpent ref) e).1 n (.releaseTx ref authKey reserveOwner) e').1
        = viewOf id v := (view_quiet rfl).trans hview
    have hcrash'' := cutOff_view hview' hcrash
    exact ⟨hcrash'', cut_pure hcrash'' (cut_pure hcrash'' (finished_view hview' hfin))⟩

theorem alone_publishWon {held : Option (String × String)} (h : At id w v row) (hstate : row.state = .issuing)
    (hnamed : Named row chain) (htx : txOf row chain = txOf copy chain) :
    Alone rules payload id chain n w none v (publishWon rules deps (fuel + 2) id copy chain held) := by
  have hfacts : { chain with tx := txOf copy chain } = wonChain row chain := by
    unfold wonChain
    rw [htx]
  unfold publishWon
  dsimp only
  cases held with
  | none => exact early_present h (alone_publishIssued h hstate hnamed hfacts)
  | some held =>
    refine cut_andFinally (Cut.mono ?_ (early_present h (alone_publishIssued h hstate hnamed hfacts)))
    exact fun _ _ _ hcrash hfin => alone_releaseUnspent hcrash hfin

theorem firstOf_cons (text : Option String) (rest : List (Option String)) :
    firstOf (text :: rest) = (firstOf [text]).or (firstOf rest) := by
  cases text with
  | none => rfl
  | some text =>
    show List.find? (fun text => text ≠ "") (text :: rest.filterMap id)
      = (List.find? (fun text => text ≠ "") [text]).or _
    by_cases hempty : text = ""
    · rw [List.find?_cons_of_neg (by simpa using hempty), List.find?_cons_of_neg (by simpa using hempty)]
      rfl
    · rw [List.find?_cons_of_pos (by simpa using hempty), List.find?_cons_of_pos (by simpa using hempty)]
      rfl

theorem firstOf_three (a b c : Option String) : firstOf [a, b, c] = (firstOf [a]).or ((firstOf [b]).or (firstOf [c])) :=
  (firstOf_cons a [b, c]).trans (congrArg _ (firstOf_cons b [c]))

/-- The hint a won row is given is the transaction its run publishes. -/
theorem txOf_hinted (row : LateRow) (chain : Chain) :
    firstOf [chain.tx, chain.transaction, (txOf row chain).or row.tx_hint] = txOf row chain := by
  unfold txOf
  rw [firstOf_three, firstOf_three]
  cases firstOf [chain.tx] with
  | some tx => rfl
  | none =>
    cases firstOf [chain.transaction] with
    | some transaction => rfl
    | none => simp only [Option.none_or, or_firstOf_self]

theorem alone_issueWon (h : At id w v row) (hstate : row.state = .issuing) (hnamed : Named row chain)
    (hhint : row.tx_hint = copy.tx_hint) :
    Alone rules payload id chain n w none v (issueWon rules deps (fuel + 2) id copy chain) := by
  unfold issueWon
  refine early_cas_either rfl rfl h fun v' row' hat hrow => ?_
  have hissuing : row'.state = .issuing := by
    rcases hrow with rfl | rfl
    · rfl
    · exact hstate
  have hnamed' : Named row' chain := by
    rcases hrow with rfl | rfl
    · exact hnamed.assign
    · exact hnamed
  have htx : txOf row' chain = txOf copy chain := by
    rcases hrow with rfl | rfl
    · exact txOf_hinted copy chain
    · unfold txOf
      rw [hhint]
  dsimp only
  split
  · exact alone_publishWon hat hissuing hnamed' htx
  · rename_i ref _
    refine cut_bind ?_
    unfold reserveCaught
    refine cut_orElse ?_
    refine early_next rfl hat fun e _ hat' => ?_
    refine cut_pure ⟨_, hat'⟩ ?_
    dsimp only
    split
    · rename_i hnone
      cases hnone
    · refine early_next rfl hat' fun e' _ hspent => ?_
      split_ifs
      · exact early_cas_either rfl rfl hspent fun _ _ hend _ => alone_pure hend _
      · exact early_cas_either rfl rfl hspent fun _ _ hend _ => alone_pure hend _
    · exact alone_publishWon hat' hissuing hnamed' htx

/-! ## The decision of a run -/

theorem alone_waitForJws {fin : Option Signing → World → Option (Option Jws) → Prop} (tries : ℕ) :
    ∀ {v : World}, At id w v row → (∀ v', At id w v' row → fin none v' (some none)) →
      LateCut payload chain n (CutOff rules payload id chain w) fin none v (waitForJws id tries) := by
  induction tries with
  | zero => exact fun h hend => cut_pure ⟨_, h⟩ (hend _ h)
  | succ tries ih =>
    intro v h hend
    refine early_getLate h ?_
    rw [Option.bind_some, h.unsigned]
    exact ih h hend

theorem alone_waited (h : At id w v row) (state : Option LateState) :
    Alone rules payload id chain n w none v (waited id state) :=
  cut_bind (alone_waitForJws 40 h fun _ hat => alone_pure hat _)

theorem alone_issueConfirmed (h : At id w v row) (hnamed : Named row chain) :
    Alone rules payload id chain n w none v (issueConfirmed rules deps (fuel + 2) id row chain now) := by
  unfold issueConfirmed
  split_ifs
  · exact alone_pure h _
  · refine early_next rfl h fun e _ hat => ?_
    split_ifs
    · refine early_cas rfl rfl hat (fun v' htaken => ?_) fun v' hlost => ?_
      · exact alone_issueWon htaken rfl hnamed.assign rfl
      · exact alone_waited hlost none
    · exact early_cas_either rfl rfl hat fun _ _ hend _ => alone_pure hend _

theorem named_of_confirmed (h : decideNext rules deps row chain now = .confirmed) : Named row chain := by
  obtain ⟨-, -, -, -, ⟨payTo, payee, hpayTo, hpayee, -⟩, -, ⟨amount, quote, hamount, -⟩, -⟩ :=
    rebind_confirmed (rebind_of_confirmed h).1
  constructor
  case payTo =>
    rw [hpayTo]
    rfl
  case payee =>
    rw [hpayee]
    rfl
  case amount =>
    obtain ⟨text, htext, -⟩ := Option.bind_eq_some_iff.1 hamount
    rw [htext]
    rfl

theorem alone_resolveDecided (h : At id w v row) :
    Alone rules payload id chain n w none v (resolveDecided rules deps (fuel + 2) id row chain now) := by
  unfold resolveDecided
  dsimp only
  split
  · exact early_cas_either rfl rfl h fun _ _ hend _ => alone_pure hend _
  · by_cases hnext : decideNext rules deps row chain now ≠ .confirmed
    · rw [if_pos hnext]
      exact alone_pure h _
    rw [if_neg hnext]
    have hnamed : Named row chain := named_of_confirmed (of_not_not hnext)
    split_ifs
    · exact alone_issueConfirmed h hnamed
    · refine early_cas_either rfl rfl h fun v' row' hat hrow => early_present hat ?_
      rcases hrow with rfl | rfl
      · exact alone_issueConfirmed hat hnamed.assign
      · exact alone_issueConfirmed hat hnamed

theorem alone_resolveOpen (h : At id w v row) :
    Alone rules payload id chain n w none v (resolveOpen rules deps (fuel + 2) id row now) := by
  unfold resolveOpen
  split_ifs
  · exact alone_pure h _
  · refine early_next rfl h fun e he hat => ?_
    have hchain : (effect v n (.readChain row) e).2 = chain := he.2
    rw [hchain]
    split
    · exact alone_resolveDecided hat
    · rename_i patch hpatch
      obtain ⟨tx_hint, scanned_to, rfl⟩ := scanPatch_marks hpatch
      refine early_cas_either rfl rfl hat fun v' row' hat' _ => ?_
      exact early_present hat' (alone_resolveDecided hat')

theorem alone_resolveIssuing (h : At id w v row) :
    Alone rules payload id chain n w none v (resolveIssuing rules deps (fuel + 2) id row now) := by
  unfold resolveIssuing
  rw [h.unsigned]
  dsimp only
  split_ifs
  · exact alone_resolveOpen h
  · exact alone_waited h _
  · refine early_cas rfl rfl h (fun v' htaken => ?_) fun v' hlost => alone_pure hlost _
    exact early_present htaken (alone_resolveOpen htaken)

/-- **A RUN ALONE**: until it persists a signature nothing public changes, and from then on it publishes. -/
theorem alone_resolveLateRecord (h : At id w v row) :
    Alone rules payload id chain n w none v (resolveLateRecord rules deps (fuel + 2) id record) := by
  unfold resolveLateRecord
  refine early_next rfl h fun e _ hat => ?_
  refine early_getLate hat ?_
  dsimp only [Option.getD_some]
  split_ifs
  · exact alone_pure hat _
  · exact alone_pure hat _
  · refine early_cas_either rfl rfl hat fun v' row' hat' _ => ?_
    exact early_present hat' (alone_resolveIssuing hat')
  · exact alone_pure hat _
  · exact alone_resolveIssuing hat

end LateResume
