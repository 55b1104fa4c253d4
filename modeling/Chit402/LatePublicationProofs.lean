import Chit402.LateIssueProofs

/-! # What a publication leaves

    The public side of a late row: its receipt, the late ledger, the digests
    of the log, the spent marks and the facts beside them.  A publication
    writes them from the row and the facts of a chain read, one operation
    after another, and each operation is a small change of this view. -/

namespace LatePublication

open LateStore LateIssue OrderedMap

variable (rules : Rules) (id : String)

/-! ## The view -/

/-- A row with what a publication writes beside it. -/
structure View where
  row : Option LateRow
  lateLedger : List LateLedgerRow
  digests : Set (String × String)
  challenges : ChallengeNonce.Store Unit SpentFacts
  authSpent : OrderedMap String (Option String)
  txSpent : Finset String
  txFacts : OrderedMap String TxFacts

def viewOf (w : World) : View where
  row := w.late.lookup id
  lateLedger := w.lateLedger
  digests := {entry | entry ∈ w.log}
  challenges := w.challenges
  authSpent := w.reservations.authSpent
  txSpent := w.reservations.txSpent
  txFacts := w.reservations.txFacts

structure SamePublication (v v' : View) : Prop where
  publicReceipt : v.row.bind LateRow.public_receipt = v'.row.bind LateRow.public_receipt
  lateLedger : v.lateLedger = v'.lateLedger
  digests : v.digests = v'.digests
  challenges : v.challenges = v'.challenges
  authSpent : v.authSpent = v'.authSpent
  txSpent : v.txSpent = v'.txSpent
  txFacts : v.txFacts = v'.txFacts

/-! ## Claims -/

/-- What a signature says of the payment. -/
structure SignedClaims where
  receipt_id : String
  pay_to : Option String
  amount_gross : Option Amount
  amount_settled : Option Amount
  payer : Option String
deriving DecidableEq

/-- `claimsFor`, without what it takes from neither the chain read nor the payment of the row. -/
def claimsFor (record : LateRow) (chain : Chain) : SignedClaims where
  receipt_id := record.receipt_id
  pay_to := (firstOf [chain.payTo]).or record.payee
  amount_gross := record.route_quote
  amount_settled := chain.amount
  payer := chain.payer

/-- A public receipt shows the amount and the payee of the claims its signature signs. It shows no payer. -/
def Agrees (payload : Jws → SignedClaims) (receipt : LateReceipt) : Prop :=
  receipt.settled_amount = (payload receipt.jws).amount_settled ∧ receipt.payee = (payload receipt.jws).pay_to

/-! ## The steps of a publication -/

/-- The facts a run publishes a row with, once it has won it on a chain read. -/
def wonChain (row : LateRow) (chain : Chain) : Chain := { chain with tx := txOf row chain }

variable (row : LateRow) (jws : Jws) (chain : Chain)

/-- The reference the marks and the ledger go under. -/
def refOf : Option String := firstOf [ledgerRef rules row chain]

def ledgered (rows : List LateLedgerRow) : List LateLedgerRow :=
  match refOf rules row chain with
  | some ref => appendLateLedger rows ⟨row.auth_key, ref, id, row.receipt_id, chain.amount, chain.payer⟩
  | none => rows

def logged (digests : Set (String × String)) : Set (String × String) :=
  insert (row.receipt_id, rules.sha256 jws) digests

def nonceFacts : SpentFacts :=
  ⟨(ledgerRef rules row chain).or row.tx_ref, chain.amount, chain.payer, (firstOf [chain.payTo]).or row.payee, true⟩

def txFactsOf : TxFacts := ⟨chain.amount, chain.payer, (firstOf [chain.payTo]).or row.payee⟩

def nonceMarked (challenges : ChallengeNonce.Store Unit SpentFacts) : ChallengeNonce.Store Unit SpentFacts :=
  match firstOf [some row.nonce] with
  | some nonce => ChallengeNonce.markSpent challenges nonce.toList (some (nonceFacts rules row chain))
  | none => challenges

/-- The reference beside a spent authorization. -/
def authRef : Option String := firstOf [(ledgerRef rules row chain).or row.tx_ref]

def authMarked (authSpent : OrderedMap String (Option String)) : OrderedMap String (Option String) :=
  match firstOf [row.auth_key] with
  | some auth_key => authSpent.set auth_key (authRef rules row chain)
  | none => authSpent

def txMarked (txSpent : Finset String) : Finset String :=
  match refOf rules row chain with
  | some ref => insert ref txSpent
  | none => txSpent

def factsMarked (txFacts : OrderedMap String TxFacts) : OrderedMap String TxFacts :=
  match refOf rules row chain with
  | some ref => txFacts.set ref (txFactsOf row chain)
  | none => txFacts

/-- What a publication of the row leaves of a view, with the facts of the chain read. -/
structure Published (base v : View) : Prop where
  publicReceipt : v.row.bind LateRow.public_receipt = some (publicLateReceipt rules id row chain jws)
  lateLedger : v.lateLedger = ledgered rules id row chain base.lateLedger
  digests : v.digests = logged rules row jws base.digests
  challenges : v.challenges = nonceMarked rules row chain base.challenges
  authSpent : v.authSpent = authMarked rules row chain base.authSpent
  txSpent : v.txSpent = txMarked rules row chain base.txSpent
  txFacts : v.txFacts = factsMarked rules row chain base.txFacts

/-- A row of a publication under way: as it was signed, but for what the publication writes to it. -/
def Follows (row row' : LateRow) : Prop :=
  ∃ state public_receipt ledger_recorded log_appended served, row' = { row with
    state := state
    public_receipt := public_receipt
    ledger_recorded := ledger_recorded
    log_appended := log_appended
    served := served }

/-- Where a publication under way can be cut off: before the row is issued no mark is made, and from then on
    the marks come one by one. -/
inductive UnderWay (base v : View) : Prop
  | pending (row' : LateRow) (hrow : v.row = some row') (follows : Follows row row') (hstate : row'.state = .issuing)
      (hlog : row'.log_appended = false)
      (lateLedger : v.lateLedger = base.lateLedger ∨ v.lateLedger = ledgered rules id row chain base.lateLedger)
      (digests : v.digests = base.digests ∨ v.digests = logged rules row jws base.digests)
      (challenges : v.challenges = base.challenges) (authSpent : v.authSpent = base.authSpent)
      (txSpent : v.txSpent = base.txSpent) (txFacts : v.txFacts = base.txFacts)
  | issued (row' : LateRow) (hrow : v.row = some row') (follows : Follows row row') (hstate : row'.state = .issued)
      (publicReceipt : row'.public_receipt = some (publicLateReceipt rules id row chain jws))
      (lateLedger : v.lateLedger = ledgered rules id row chain base.lateLedger)
      (digests : v.digests = logged rules row jws base.digests)
      (challenges : v.challenges = base.challenges ∨ v.challenges = nonceMarked rules row chain base.challenges)
      (authSpent : v.authSpent = base.authSpent ∨ v.authSpent = authMarked rules row chain base.authSpent)
      (txSpent : v.txSpent = base.txSpent ∨ v.txSpent = txMarked rules row chain base.txSpent)
      (txFacts : v.txFacts = base.txFacts ∨ v.txFacts = factsMarked rules row chain base.txFacts)

/-! ## Conditions on a cut-off state -/

/-- The nonce is spent under every spelling, with these facts on every record of it. -/
structure NonceMarked (challenges : ChallengeNonce.Store Unit SpentFacts) (nonce : List Char)
    (facts : SpentFacts) : Prop where
  own : nonce ∈ challenges.spent
  spent : ∀ key ∈ ChallengeNonce.nonceVariants nonce, key ∈ challenges.spent
  settled : ∀ key ∈ ChallengeNonce.nonceVariants nonce, ∀ rec ∈ challenges.map.lookup key,
    rec.state = .spent ∧ rec.settlement = some facts

structure MarksStand (v : View) : Prop where
  nonce : ∀ nonce ∈ firstOf [some row.nonce], NonceMarked v.challenges nonce.toList (nonceFacts rules row chain)
  auth : ∀ auth_key ∈ firstOf [row.auth_key], v.authSpent.lookup auth_key = some (authRef rules row chain)
  tx : ∀ ref ∈ refOf rules row chain, ref ∈ v.txSpent ∧ v.txFacts.lookup ref = some (txFactsOf row chain)

/-- Some record of a publication keeps the payer: the transaction facts, or a record of the nonce. -/
def KeepsPayer (v : View) : Prop :=
  (refOf rules row chain).isSome
    ∨ ∃ nonce ∈ firstOf [some row.nonce], ∃ key ∈ ChallengeNonce.nonceVariants nonce.toList,
      (v.challenges.map.lookup key).isSome

/-- The facts of the row itself are those of the chain read, to the letter. -/
structure SameFacts (v : View) : Prop where
  amount : row.expected_settled_amount = chain.amount
  payee : row.payee = chain.payTo
  ref : ledgerRef rules row (rowChain row) = ledgerRef rules row chain
  payer : KeepsPayer rules row chain v → row.auth.from = chain.payer

/-! ## Marks -/

variable {rules id row jws chain}

variable {key : List Char} {text : Option String} {ref : String}

theorem firstOf_single {found : String} : firstOf [text] = some found ↔ text = some found ∧ found ≠ "" := by
  cases text with
  | none => simp [firstOf]
  | some text =>
    show List.find? (fun text => text ≠ "") [text] = some found ↔ _
    rw [List.find?_singleton]
    by_cases hempty : text = ""
    · rw [if_neg (by simpa using hempty)]
      constructor
      · nofun
      · rintro ⟨⟨⟩, hne⟩
        exact (hne hempty).elim
    · rw [if_pos (by simpa using hempty)]
      constructor
      · rintro ⟨⟩
        exact ⟨rfl, hempty⟩
      · exact fun h => h.1

section Nonce

open ChallengeNonce

variable {challenges : ChallengeNonce.Store Unit SpentFacts} {nonce : List Char} {facts facts' : SpentFacts}

theorem spendKey_settled (key : List Char) : ∀ rec ∈ (spendKey (some facts) challenges key).map.lookup key,
    rec.state = .spent ∧ rec.settlement = some facts := by
  intro rec hrec
  rw [spendKey_lookup, if_pos rfl] at hrec
  obtain ⟨old, -, rfl⟩ := Option.map_eq_some_iff.1 hrec
  exact ⟨rfl, rfl⟩

/-- A pass over the keys leaves every record of one of them settled with the facts. -/
theorem foldl_settled (keys : List (List Char)) :
    ∀ {challenges : ChallengeNonce.Store Unit SpentFacts} {key : List Char},
      (key ∈ keys ∨ ∀ rec ∈ challenges.map.lookup key, rec.state = .spent ∧ rec.settlement = some facts) →
        ∀ rec ∈ (keys.foldl (spendKey (some facts)) challenges).map.lookup key,
          rec.state = .spent ∧ rec.settlement = some facts := by
  induction keys with
  | nil =>
    intro challenges key h
    rcases h with hmem | hsettled
    · cases hmem
    · exact hsettled
  | cons first rest ih =>
    intro challenges key h
    rw [List.foldl_cons]
    refine ih ?_
    by_cases hkey : key = first
    · rw [hkey]
      exact Or.inr (spendKey_settled first)
    · rcases h with hmem | hsettled
      · exact Or.inl ((List.mem_cons.1 hmem).resolve_left hkey)
      · right
        rw [spendKey_lookup, if_neg hkey]
        exact hsettled

theorem markSpent_marked (hnonce : nonce ≠ []) : NonceMarked (markSpent challenges nonce (some facts)) nonce facts := by
  unfold markSpent
  rw [if_neg hnonce]
  constructor
  case own => exact spendKey_spent _ _ _ (Or.inl (Finset.mem_insert_self ..))
  case spent => exact fun key hkey => spendKey_spent _ _ _ (Or.inr hkey)
  case settled => exact fun key hkey => foldl_settled _ (Or.inl hkey)

theorem spendKey_of_marked (hspent : key ∈ challenges.spent)
    (hsettled : ∀ rec ∈ challenges.map.lookup key, rec.state = .spent ∧ rec.settlement = some facts) :
    spendKey (some facts) challenges key = challenges := by
  unfold spendKey
  rw [Finset.insert_eq_of_mem hspent]
  cases hrec : challenges.map.lookup key with
  | none => rfl
  | some rec =>
    obtain ⟨hstate, hfacts⟩ := hsettled rec hrec
    have hsame : { rec with state := .spent, settlement := (some facts).or rec.settlement } = rec := by
      rw [Option.some_or, ← hfacts, ← hstate]
    dsimp only
    rw [hsame, OrderedMap.set_of_lookup hrec]

/-- A mark that stands changes nothing when it is made again. -/
theorem markSpent_of_marked (h : NonceMarked challenges nonce facts) :
    markSpent challenges nonce (some facts) = challenges := by
  obtain ⟨hown, hspent, hsettled⟩ := h
  unfold markSpent
  split_ifs
  · rfl
  · rw [Finset.insert_eq_of_mem hown]
    show (nonceVariants nonce).foldl (spendKey (some facts)) challenges = challenges
    generalize nonceVariants nonce = keys at hspent hsettled ⊢
    induction keys with
    | nil => rfl
    | cons first rest ih =>
      rw [List.foldl_cons, spendKey_of_marked (hspent first (List.mem_cons_self ..))
        (hsettled first (List.mem_cons_self ..))]
      exact ih (fun key hkey => hspent key (List.mem_cons_of_mem _ hkey))
        fun key hkey => hsettled key (List.mem_cons_of_mem _ hkey)

theorem markSpent_kept (h : (challenges.map.lookup key).isSome) :
    ∃ rec, (markSpent challenges nonce (some facts)).map.lookup key = some rec := by
  rcases markSpent_lookup challenges nonce (some facts) key with hsame | ⟨rec, -, hrec, -⟩
  · rw [hsame]
    exact Option.isSome_iff_exists.1 h
  · exact ⟨rec, hrec⟩

/-- Where no record of the nonce is kept, no facts are. -/
theorem markSpent_unkept (h : ∀ key ∈ nonceVariants nonce, challenges.map.lookup key = none) :
    markSpent challenges nonce (some facts) = markSpent challenges nonce (some facts') := by
  unfold markSpent
  split_ifs
  · rfl
  · generalize hs : ({ challenges with spent := insert nonce challenges.spent } :
      ChallengeNonce.Store Unit SpentFacts) = s
    have hmap : ∀ key ∈ nonceVariants nonce, s.map.lookup key = none := by
      rw [← hs]
      exact h
    clear hs h
    generalize nonceVariants nonce = keys at hmap ⊢
    induction keys generalizing s with
    | nil => rfl
    | cons first rest ih =>
      have hfirst := hmap first (List.mem_cons_self ..)
      have hspend : ∀ facts, spendKey (some facts) s first = { s with spent := insert first s.spent } := by
        intro facts
        unfold spendKey
        rw [hfirst]
      rw [List.foldl_cons, List.foldl_cons, hspend, hspend]
      exact ih _ fun key hkey => hmap key (List.mem_cons_of_mem _ hkey)

end Nonce

/-! ## When two publications are the same -/

/-- What a chain read that matches the row names. -/
structure Named (row : LateRow) (chain : Chain) : Prop where
  payTo : (firstOf [chain.payTo]).isSome
  payee : (firstOf [row.payee]).isSome
  amount : chain.amount.isSome

theorem Named.assign {row : LateRow} {chain : Chain} {patch : LatePatch} {target : LateState} (h : Named row chain) :
    Named (row.assign patch target) chain :=
  ⟨h.payTo, h.payee, h.amount⟩

theorem or_firstOf_self (text : Option String) : (firstOf [text]).or text = text := by
  cases hfirst : firstOf [text] with
  | none => exact Option.none_or
  | some found => rw [(firstOf_single.1 hfirst).1, Option.some_or]

theorem firstOf_or {other : Option String} (h : (firstOf [text]).isSome) : (firstOf [text]).or other = text := by
  obtain ⟨found, hfound⟩ := Option.isSome_iff_exists.1 h
  rw [hfound, Option.some_or, (firstOf_single.1 hfound).1]

theorem publicLateReceipt_eq_iff (hnamed : Named row chain) :
    publicLateReceipt rules id row (rowChain row) jws = publicLateReceipt rules id row chain jws
      ↔ row.expected_settled_amount = chain.amount ∧ row.payee = chain.payTo
        ∧ ledgerRef rules row (rowChain row) = ledgerRef rules row chain := by
  obtain ⟨amount, hamount⟩ := Option.isSome_iff_exists.1 hnamed.amount
  constructor
  · intro h
    have hpayee : (firstOf [row.payee]).or row.payee = (firstOf [chain.payTo]).or row.payee :=
      congrArg LateReceipt.payee h
    have hsettled : row.expected_settled_amount.or row.expected_settled_amount
        = chain.amount.or row.expected_settled_amount := congrArg LateReceipt.settled_amount h
    rw [or_firstOf_self, firstOf_or hnamed.payTo] at hpayee
    rw [Option.or_self, hamount, Option.some_or, ← hamount] at hsettled
    exact ⟨hsettled, hpayee, congrArg LateReceipt.ref h⟩
  · rintro ⟨hsettled, hpayee, href⟩
    unfold publicLateReceipt
    rw [href, ← hpayee, ← hsettled]
    rfl

theorem appendLateLedger_again (rows : List LateLedgerRow) {row : LateLedgerRow} (href : row.tx_ref ≠ "") :
    appendLateLedger (appendLateLedger rows row) row = appendLateLedger rows row := by
  by_cases hany : rows.any fun r => (row.auth_key.any (· ≠ "") ∧ r.auth_key = row.auth_key)
      ∨ (row.tx_ref ≠ "" ∧ r.tx_ref = row.tx_ref)
  · have hsame : appendLateLedger rows row = rows := if_pos hany
    rw [hsame, hsame]
  · have hnew : appendLateLedger rows row = rows ++ [row] := if_neg hany
    rw [hnew]
    refine if_pos ?_
    rw [List.any_append]
    simp [href]

theorem refOf_ne_empty (h : refOf rules row chain = some ref) : ref ≠ "" := (firstOf_single.1 h).2

variable {base v b u : View}

section

variable (h : SameFacts rules row chain v)
include h

theorem refOf_rowChain : refOf rules row (rowChain row) = refOf rules row chain := by
  unfold refOf
  rw [h.ref]

theorem payer_of_ref (href : refOf rules row chain = some ref) : row.auth.from = chain.payer :=
  h.payer (Or.inl (by rw [href]; rfl))

/-- The ledger row of the row's own facts is the one of the chain read, and neither is written twice. -/
theorem ledgered_rowChain {rows rows' : List LateLedgerRow}
    (hrows : rows' = rows ∨ rows' = ledgered rules id row chain rows) :
    ledgered rules id row (rowChain row) rows' = ledgered rules id row chain rows := by
  unfold ledgered at *
  rw [refOf_rowChain h]
  cases href : refOf rules row chain with
  | none =>
    rw [href] at hrows
    exact hrows.elim (fun h => h) fun h => h
  | some ref =>
    rw [href] at hrows
    dsimp only at hrows ⊢
    have hrow : (⟨row.auth_key, ref, id, row.receipt_id, (rowChain row).amount, (rowChain row).payer⟩ : LateLedgerRow)
        = ⟨row.auth_key, ref, id, row.receipt_id, chain.amount, chain.payer⟩ := by
      show (⟨_, _, _, _, row.expected_settled_amount, row.auth.from⟩ : LateLedgerRow) = _
      rw [h.amount, payer_of_ref h href]
    rw [hrow]
    rcases hrows with rfl | rfl
    · rfl
    · exact appendLateLedger_again _ (refOf_ne_empty href)

theorem txFactsOf_rowChain (href : refOf rules row chain = some ref) :
    txFactsOf row (rowChain row) = txFactsOf row chain := by
  unfold txFactsOf
  rw [← h.amount, ← payer_of_ref h href, ← h.payee]
  rfl

theorem nonceFacts_rowChain (hpayer : row.auth.from = chain.payer) :
    nonceFacts rules row (rowChain row) = nonceFacts rules row chain := by
  unfold nonceFacts
  rw [h.ref, ← h.amount, ← hpayer, ← h.payee]
  rfl

theorem nonceMarked_rowChain :
    nonceMarked rules row (rowChain row) v.challenges = nonceMarked rules row chain v.challenges := by
  unfold nonceMarked
  cases hnonce : firstOf [some row.nonce] with
  | none => rfl
  | some nonce =>
    dsimp only
    by_cases hkept : KeepsPayer rules row chain v
    · rw [nonceFacts_rowChain h (h.payer hkept)]
    · refine markSpent_unkept ?_
      intro key hkey
      by_contra hrec
      exact hkept (Or.inr ⟨nonce, hnonce, key, hkey, Option.isSome_iff_ne_none.2 hrec⟩)

end

/-- **BEFORE THE ROW IS ISSUED**: a publication from the row's own facts, taken up at any point, leaves what
    the one from the chain read leaves exactly when the facts are the same. -/
theorem samePublication_iff_sameFacts (hnamed : Named row chain)
    (hlateLedger : v.lateLedger = base.lateLedger ∨ v.lateLedger = ledgered rules id row chain base.lateLedger)
    (hdigests : v.digests = base.digests ∨ v.digests = logged rules row jws base.digests)
    (hchallenges : v.challenges = base.challenges) (hauthSpent : v.authSpent = base.authSpent)
    (htxSpent : v.txSpent = base.txSpent) (htxFacts : v.txFacts = base.txFacts)
    (hb : Published rules id row jws (rowChain row) v b) (hu : Published rules id row jws chain base u) :
    SamePublication b u ↔ SameFacts rules row chain v := by
  constructor
  · intro h
    have hreceipt := h.publicReceipt
    rw [hb.publicReceipt, hu.publicReceipt] at hreceipt
    obtain ⟨hamount, hpayee, href⟩ := (publicLateReceipt_eq_iff hnamed).1 (Option.some.inj hreceipt)
    refine ⟨hamount, hpayee, href, ?_⟩
    have hsameRef : refOf rules row (rowChain row) = refOf rules row chain := by
      unfold refOf
      rw [href]
    rintro (hkept | ⟨nonce, hnonce, key, hkey, hkept⟩)
    · -- the facts beside the transaction name the payer
      obtain ⟨ref, hsome⟩ := Option.isSome_iff_exists.1 hkept
      have hfacts := h.txFacts
      rw [hb.txFacts, hu.txFacts] at hfacts
      unfold factsMarked at hfacts
      rw [hsameRef, hsome] at hfacts
      have hlook := congrArg (fun m : OrderedMap String TxFacts => m.lookup ref) hfacts
      dsimp only at hlook
      rw [lookup_set_self, lookup_set_self] at hlook
      exact congrArg TxFacts.payer (Option.some.inj hlook)
    · -- and so do those on a record of the nonce
      have hmarks := h.challenges
      rw [hb.challenges, hu.challenges, ← hchallenges] at hmarks
      unfold nonceMarked at hmarks
      rw [Option.mem_def.1 hnonce] at hmarks
      dsimp only at hmarks
      have hne : nonce.toList ≠ [] := by
        intro hnil
        exact (firstOf_single.1 hnonce).2 (String.toList_inj.1 hnil)
      have hown : NonceMarked (ChallengeNonce.markSpent v.challenges nonce.toList
        (some (nonceFacts rules row (rowChain row))))
          nonce.toList (nonceFacts rules row (rowChain row)) := markSpent_marked hne
      have hother : NonceMarked (ChallengeNonce.markSpent v.challenges nonce.toList (some (nonceFacts rules row chain)))
          nonce.toList (nonceFacts rules row chain) := markSpent_marked hne
      rw [hmarks] at hown
      have hthere : ∃ rec, (ChallengeNonce.markSpent v.challenges nonce.toList
          (some (nonceFacts rules row chain))).map.lookup key = some rec := markSpent_kept hkept
      obtain ⟨rec, hrec⟩ := hthere
      have hsame := ((hown.settled key hkey rec hrec).2.symm.trans (hother.settled key hkey rec hrec).2)
      exact congrArg SpentFacts.payer (Option.some.inj hsame)
  · intro h
    have href := refOf_rowChain h
    constructor
    case publicReceipt =>
      rw [hb.publicReceipt, hu.publicReceipt, (publicLateReceipt_eq_iff hnamed).2 ⟨h.amount, h.payee, h.ref⟩]
    case lateLedger =>
      rw [hb.lateLedger, hu.lateLedger, ledgered_rowChain h hlateLedger]
    case digests =>
      rw [hb.digests, hu.digests]
      rcases hdigests with hsame | hsame
      · rw [hsame]
      · rw [hsame]
        exact Set.insert_idem ..
    case challenges => rw [hb.challenges, hu.challenges, ← hchallenges, nonceMarked_rowChain h]
    case authSpent =>
      rw [hb.authSpent, hu.authSpent, hauthSpent]
      unfold authMarked authRef
      rw [h.ref]
    case txSpent =>
      rw [hb.txSpent, hu.txSpent, htxSpent]
      unfold txMarked
      rw [href]
    case txFacts =>
      rw [hb.txFacts, hu.txFacts, htxFacts]
      unfold factsMarked
      rw [href]
      cases hsome : refOf rules row chain with
      | none => rfl
      | some ref =>
        dsimp only
        rw [txFactsOf_rowChain h hsome]

/-- **ONCE THE ROW IS ISSUED**: a publication that was cut off has left all of it exactly when its marks stand. -/
theorem samePublication_iff_marksStand
    (hpublic : v.row.bind LateRow.public_receipt = some (publicLateReceipt rules id row chain jws))
    (hlateLedger : v.lateLedger = ledgered rules id row chain base.lateLedger)
    (hdigests : v.digests = logged rules row jws base.digests)
    (hchallenges : v.challenges = base.challenges ∨ v.challenges = nonceMarked rules row chain base.challenges)
    (hauthSpent : v.authSpent = base.authSpent ∨ v.authSpent = authMarked rules row chain base.authSpent)
    (htxSpent : v.txSpent = base.txSpent ∨ v.txSpent = txMarked rules row chain base.txSpent)
    (htxFacts : v.txFacts = base.txFacts ∨ v.txFacts = factsMarked rules row chain base.txFacts)
    (hu : Published rules id row jws chain base u) : SamePublication v u ↔ MarksStand rules row chain v := by
  constructor
  · intro h
    constructor
    case nonce =>
      intro nonce hnonce
      rw [h.challenges, hu.challenges]
      unfold nonceMarked
      rw [Option.mem_def.1 hnonce]
      refine markSpent_marked ?_
      intro hnil
      exact (firstOf_single.1 hnonce).2 (String.toList_inj.1 hnil)
    case auth =>
      intro auth_key hkey
      rw [h.authSpent, hu.authSpent]
      unfold authMarked
      rw [Option.mem_def.1 hkey]
      exact lookup_set_self ..
    case tx =>
      intro ref href
      rw [h.txSpent, hu.txSpent, h.txFacts, hu.txFacts]
      unfold txMarked factsMarked
      rw [Option.mem_def.1 href]
      exact ⟨Finset.mem_insert_self .., lookup_set_self ..⟩
  · intro h
    constructor
    case publicReceipt => rw [hpublic, hu.publicReceipt]
    case lateLedger => rw [hlateLedger, hu.lateLedger]
    case digests => rw [hdigests, hu.digests]
    case challenges =>
      rw [hu.challenges]
      rcases hchallenges with hbase | hmarked
      · rw [← hbase]
        unfold nonceMarked
        cases hnonce : firstOf [some row.nonce] with
        | none => rfl
        | some nonce => exact (markSpent_of_marked (h.nonce nonce hnonce)).symm
      · exact hmarked
    case authSpent =>
      rw [hu.authSpent]
      rcases hauthSpent with hbase | hmarked
      · rw [← hbase]
        unfold authMarked
        cases hkey : firstOf [row.auth_key] with
        | none => rfl
        | some auth_key => exact (set_of_lookup (h.auth auth_key hkey)).symm
      · exact hmarked
    case txSpent =>
      rw [hu.txSpent]
      rcases htxSpent with hbase | hmarked
      · rw [← hbase]
        unfold txMarked
        cases href : refOf rules row chain with
        | none => rfl
        | some ref => exact (Finset.insert_eq_of_mem (h.tx ref href).1).symm
      · exact hmarked
    case txFacts =>
      rw [hu.txFacts]
      rcases htxFacts with hbase | hmarked
      · rw [← hbase]
        unfold factsMarked
        cases href : refOf rules row chain with
        | none => rfl
        | some ref => exact (set_of_lookup (h.tx ref href).2).symm
      · exact hmarked

end LatePublication
