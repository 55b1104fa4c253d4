import Chit402.OrderedMapProofs
import Chit402.TraceProofs

/-! # Rolling settlement

    What a call cost is charged on the next one, so the ledger has to carry
    the debt from one to the other.  `ledger` is a bounded map over one file
    for each payer.  With the files the map is a cache and may lose any
    entry; without them what the bound drops is gone. -/

namespace RollingSettlement

open OrderedMap Trace

variable {δ : Type}

/-! ## The ledger -/

def MAX_PAYERS : ℕ := 10000

/-- A charge, with the fields that no rule reads as its `details`. -/
structure PendingCharge (δ : Type) where
  amount : ℤ
  details : δ
  attempts : ℕ
deriving DecidableEq

structure Payer (δ : Type) where
  pending : Option (PendingCharge δ)
  settled : ℕ
  forgiven : ℕ

def fresh : Payer δ := ⟨none, 0, 0⟩

/-- The map in memory, and the files as they read back. -/
structure State (δ : Type) where
  ledger : OrderedMap String (Payer δ)
  files : String → Option (Payer δ)

def loadPayer (persist : Bool) (s : State δ) (id : String) : Option (Payer δ) :=
  if persist = true then s.files id else none

def prune (ledger : OrderedMap String (Payer δ)) : OrderedMap String (Payer δ) :=
  let owing := keep (fun payer => payer.pending.isSome) ledger
  if MAX_PAYERS ≤ size owing then ∅ else owing

def readPayer (persist : Bool) (id : String) (s : State δ) : Payer δ × State δ :=
  match s.ledger.lookup id with
  | some payer => (payer, s)
  | none =>
    match loadPayer persist s id with
    | some payer => (payer, { s with ledger := set s.ledger id payer })
    | none =>
      (fresh, { s with ledger := set (if MAX_PAYERS ≤ size s.ledger then prune s.ledger else s.ledger) id fresh })

inductive Answer (δ : Type) where
  | threw
  | unknown
  | returned (pending : Option (PendingCharge δ))

/-- The payer's record is changed and persisted, and changed back when the write or the rename fails. -/
def change (persist fails : Bool) (id : String) (before after : Payer δ) (answer : Option (PendingCharge δ))
    (s : State δ) : Answer δ × State δ :=
  if persist = true ∧ fails = true then (.threw, { s with ledger := set s.ledger id before })
  else
    (.returned answer,
      ⟨set s.ledger id after, if persist = true then Function.update s.files id (some after) else s.files⟩)

def getPending (persist : Bool) (id : String) (s : State δ) : Option (PendingCharge δ) × State δ :=
  match s.ledger.lookup id with
  | some payer => (payer.pending, s)
  | none =>
    match loadPayer persist s id with
    | some payer => (payer.pending, { s with ledger := set s.ledger id payer })
    | none => (none, s)

def recordPending (persist fails : Bool) (id : String) (charge : PendingCharge δ) (s : State δ) :
    Answer δ × State δ :=
  let read := readPayer persist id s
  let replaced := change persist fails id read.1 { read.1 with pending := some charge } (some charge) read.2
  match read.1.pending with
  | some owed => if charge.amount ≤ owed.amount then (.returned (some owed), read.2) else replaced
  | none => replaced

/-- `ledger.get(payerId) || loadPayer(payerId)` -/
def existing (persist : Bool) (s : State δ) (id : String) : Option (Payer δ) :=
  (s.ledger.lookup id).orElse fun _ => loadPayer persist s id

def markSettled (persist fails : Bool) (id : String) (s : State δ) : Answer δ × State δ :=
  match existing persist s id with
  | none => (.unknown, s)
  | some payer =>
    change persist fails id payer { payer with pending := none, settled := payer.settled + 1 } payer.pending s

def retried (owed : PendingCharge δ) : PendingCharge δ := { owed with attempts := owed.attempts + 1 }

def markSettleFailed (persist fails : Bool) (id : String) (s : State δ) : Answer δ × State δ :=
  match existing persist s id with
  | none => (.unknown, s)
  | some payer =>
    match payer.pending with
    | none => (.unknown, s)
    | some owed => change persist fails id payer { payer with pending := some (retried owed) } (some (retried owed)) s

/-! ## Runs -/

/-- A call, a persist of it failing or not; a restart empties the map. -/
inductive Event (δ : Type) where
  | getPending (id : String)
  | recordPending (id : String) (charge : PendingCharge δ) (fails : Bool)
  | markSettled (id : String) (fails : Bool)
  | markSettleFailed (id : String) (fails : Bool)
  | restart

def step (persist : Bool) (s : State δ) : Event δ → Answer δ × State δ
  | .getPending id => (.returned (getPending persist id s).1, (getPending persist id s).2)
  | .recordPending id charge fails => recordPending persist fails id charge s
  | .markSettled id fails => markSettled persist fails id s
  | .markSettleFailed id fails => markSettleFailed persist fails id s
  | .restart => (.unknown, { s with ledger := ∅ })

def Event.payer : Event δ → Option String
  | .getPending id | .recordPending id _ _ | .markSettled id _ | .markSettleFailed id _ => some id
  | .restart => none

/-- What a payer should owe, and how often they have settled. -/
structure Account (δ : Type) where
  owed : Option (PendingCharge δ)
  settled : ℕ

/-- A second charge replaces a pending one only if it is larger. -/
def larger (charge : PendingCharge δ) : Option (PendingCharge δ) → PendingCharge δ
  | some owed => if charge.amount ≤ owed.amount then owed else charge
  | none => charge

/-- The account after a call of the payer that was answered so. -/
def Account.next (account : Account δ) : Event δ → Answer δ → Account δ
  | .recordPending _ charge _, .returned _ => { account with owed := some (larger charge account.owed) }
  | .markSettled _ _, .returned _ => ⟨none, account.settled + 1⟩
  | .markSettleFailed _ _, .returned _ => { account with owed := account.owed.map retried }
  | _, _ => account

/-- The state, and the accounts of all payers beside it. -/
abbrev Tracked (δ : Type) := State δ × (String → Account δ)

def track (persist : Bool) (t : Tracked δ) (e : Event δ) : Tracked δ :=
  let stepped := step persist t.1 e
  (stepped.2, fun id => if e.payer = some id then (t.2 id).next e stepped.1 else t.2 id)

def start : Tracked δ := (⟨∅, fun _ => none⟩, fun _ => ⟨none, 0⟩)

/-- Only a persisted ledger restarts, and without files the map has room for a payer it does not hold. -/
def Roomy (persist : Bool) (s : State δ) : Event δ → Prop
  | .recordPending id _ _ => persist = true ∨ s.ledger.lookup id ≠ none ∨ size s.ledger < MAX_PAYERS
  | .restart => persist = true
  | _ => True

/-! ## What the ledger holds of a payer -/

/-- The payer's record, wherever it is. -/
def record (persist : Bool) (s : State δ) (id : String) : Payer δ := (existing persist s id).getD fresh

/-- With files, the map is a cache of them. -/
def Backed (persist : Bool) (s : State δ) : Prop :=
  persist = true → ∀ id payer, s.ledger.lookup id = some payer → payer = (s.files id).getD fresh

variable {persist : Bool} {id : String} {payer : Payer δ} {s s' : State δ}

theorem record_of_lookup (h : s.ledger.lookup id = some payer) : record persist s id = payer := by
  rw [record, existing, h]
  rfl

theorem record_of_none (h : s.ledger.lookup id = none) : record persist s id = (loadPayer persist s id).getD fresh := by
  rw [record, existing, h]
  rfl

theorem Backed.record_eq (h : Backed true s) (id : String) : record true s id = (s.files id).getD fresh := by
  cases hl : s.ledger.lookup id with
  | none => exact record_of_none hl
  | some payer => exact (record_of_lookup hl).trans (h rfl id payer hl)

/-- One payer's record changes, and the map stays a cache. -/
structure Changes (persist : Bool) (s : State δ) (id : String) (payer : Payer δ) (s' : State δ) : Prop where
  record : record persist s' = Function.update (record persist s) id payer
  backed : Backed persist s'

/-- Every write goes through the map. -/
theorem changes_set (hb : Backed persist s) {files : String → Option (Payer δ)} (hfiles : ∀ id', (files id').getD fresh
      = if persist = true ∧ id' = id then payer else (s.files id').getD fresh) :
    Changes persist s id payer ⟨set s.ledger id payer, files⟩ := by
  have hrecord : ∀ id', record persist ⟨set s.ledger id payer, files⟩ id'
      = Function.update (record persist s) id payer id' := by
    intro id'
    by_cases hid : id' = id
    · rw [hid, Function.update_self, record_of_lookup (lookup_set_self _ _ _)]
    · rw [Function.update_of_ne hid]
      cases hl : s.ledger.lookup id' with
      | some held => rw [record_of_lookup hl, record_of_lookup ((lookup_set_ne _ _ hid).trans hl)]
      | none =>
        rw [record_of_none hl, record_of_none ((lookup_set_ne _ _ hid).trans hl), loadPayer, loadPayer]
        split
        · rw [hfiles, if_neg (fun h => hid h.2)]
        · rfl
  refine ⟨funext hrecord, fun hp id' held hl => ?_⟩
  rw [hfiles]
  by_cases hid : id' = id
  · rw [hid, lookup_set_self] at hl
    rw [if_pos ⟨hp, hid⟩]
    exact (Option.some.inj hl).symm
  · rw [if_neg (fun h => hid h.2)]
    exact hb hp id' held ((lookup_set_ne _ _ hid).symm.trans hl)

theorem changes_cache (hb : Backed persist s) :
    Changes persist s id (record persist s id) { s with ledger := set s.ledger id (record persist s id) } := by
  refine changes_set hb fun id' => ?_
  split
  · rename_i h
    obtain ⟨rfl, rfl⟩ := h
    exact (hb.record_eq id').symm
  · rfl

theorem changes_change {fails : Bool} {after : Payer δ} {answer : Option (PendingCharge δ)} (hb : Backed persist s) :
    (change persist fails id (record persist s id) after answer s).1 = .threw
        ∧ (change persist fails id (record persist s id) after answer s).2
          = { s with ledger := set s.ledger id (record persist s id) }
      ∨ (change persist fails id (record persist s id) after answer s).1 = .returned answer
        ∧ Changes persist s id after (change persist fails id (record persist s id) after answer s).2 := by
  rw [change]
  split
  · exact .inl ⟨rfl, rfl⟩
  · refine .inr ⟨rfl, changes_set hb fun id' => ?_⟩
    by_cases hp : persist = true
    · rw [if_pos hp]
      by_cases hid : id' = id
      · rw [hid, Function.update_self, if_pos ⟨hp, rfl⟩]
        rfl
      · rw [Function.update_of_ne hid, if_neg (fun h => hid h.2)]
    · rw [if_neg hp, if_neg (fun h => hp h.1)]

/-- Where entries are dropped the map is a cache. -/
theorem readPayer_spec (hb : Backed persist s)
    (hroom : persist = true ∨ s.ledger.lookup id ≠ none ∨ size s.ledger < MAX_PAYERS) :
    (readPayer persist id s).1 = record persist s id ∧ (readPayer persist id s).2.files = s.files
      ∧ Changes persist s id (record persist s id) (readPayer persist id s).2 := by
  have hcache : Changes persist s id (record persist s id) _ := changes_cache hb
  rw [readPayer]
  cases hl : s.ledger.lookup id with
  | some payer =>
    rw [record_of_lookup hl] at hcache ⊢
    rw [set_of_lookup hl] at hcache
    exact ⟨rfl, rfl, hcache⟩
  | none =>
    have hnone : record persist s id = _ := record_of_none hl
    dsimp only
    cases hload : loadPayer persist s id with
    | some payer =>
      rw [hload] at hnone
      rw [hnone] at hcache ⊢
      exact ⟨rfl, rfl, hcache⟩
    | none =>
      rw [hload] at hnone
      rw [hnone] at hcache ⊢
      refine ⟨rfl, rfl, ?_⟩
      dsimp only
      split
      · rename_i hfull
        obtain rfl : persist = true :=
          hroom.resolve_right fun h => h.elim (· hl) (Nat.not_lt.mpr hfull)
        have hpruned : Backed true { s with ledger := prune s.ledger } := by
          intro hp id' payer hl'
          refine hb hp id' payer ?_
          rw [prune] at hl'
          split at hl'
          · cases hl'
          · rw [lookup_keep, Option.filter_eq_some_iff] at hl'
            exact hl'.1
        have hsame : record true { s with ledger := prune s.ledger } = record true s :=
          funext fun id' => (hpruned.record_eq id').trans (hb.record_eq id').symm
        have hset : Changes true _ id _ _ := changes_cache hpruned
        rw [hsame, hnone] at hset
        exact ⟨hset.record.trans (by rw [hsame]), hset.backed⟩
      · exact hcache

theorem changes_same (hb : Backed persist s) : Changes persist s id (record persist s id) s :=
  ⟨(Function.update_eq_self _ _).symm, hb⟩

theorem changes_trans {after : Payer δ} (h : Changes persist s id (record persist s id) s')
    {s'' : State δ} (h' : Changes persist s' id after s'') : Changes persist s id after s'' :=
  ⟨by rw [h'.record, h.record, Function.update_idem], h'.backed⟩

theorem record_same (h : Changes persist s id (record persist s id) s') : record persist s' = record persist s :=
  h.record.trans (Function.update_eq_self _ _)

theorem getPending_spec (hb : Backed persist s) : (getPending persist id s).1 = (record persist s id).pending
      ∧ Changes persist s id (record persist s id) (getPending persist id s).2 := by
  have hcache : Changes persist s id (record persist s id) _ := changes_cache hb
  rw [getPending]
  cases hl : s.ledger.lookup id with
  | some payer => exact ⟨congrArg Payer.pending (record_of_lookup hl).symm, changes_same hb⟩
  | none =>
    have hnone : record persist s id = _ := record_of_none hl
    dsimp only
    cases hload : loadPayer persist s id with
    | some payer =>
      rw [hload] at hnone
      rw [hnone] at hcache ⊢
      exact ⟨rfl, hcache⟩
    | none =>
      rw [hload] at hnone
      exact ⟨congrArg Payer.pending hnone.symm, changes_same hb⟩

/-! ## Every call keeps the accounts -/

def Matches (payer : Payer δ) (account : Account δ) : Prop :=
  payer.pending = account.owed ∧ payer.settled = account.settled

/-- What a call of a payer does: their record follows the account, and a call that throws writes nothing. -/
structure Follows (persist : Bool) (s : State δ) (e : Event δ) (id : String) (answer : Answer δ) (s' : State δ) :
    Prop where
  account : ∃ after, Changes persist s id after s'
    ∧ ∀ account, Matches (record persist s id) account → Matches after (account.next e answer)
  threw : answer = .threw → s'.files = s.files ∧ s'.ledger.lookup id = some (record persist s id)

theorem follows_same {e : Event δ} {answer : Answer δ} (h : Changes persist s id (record persist s id) s')
    (hanswer : answer ≠ .threw) (hnext : ∀ account, Matches (record persist s id) account →
      account.next e answer = account) :
    Follows persist s e id answer s' :=
  ⟨⟨_, h, fun account hm => (hnext account hm).symm ▸ hm⟩, fun h => absurd h hanswer⟩

/-- A record is changed from a state that shows the same records. -/
theorem follows_change {e : Event δ} {fails : Bool} {after : Payer δ} {answer : Option (PendingCharge δ)} {s1 : State δ}
    (h : Changes persist s id (record persist s id) s1) (hfiles : s1.files = s.files)
    (hthrew : ∀ account : Account δ, account.next e .threw = account)
    (hnext : ∀ account, Matches (record persist s id) account → Matches after (account.next e (.returned answer))) :
    Follows persist s e id (change persist fails id (record persist s id) after answer s1).1
      (change persist fails id (record persist s id) after answer s1).2 := by
  have hsame : record persist s1 id = record persist s id := congrFun (record_same h) id
  have hcases := @changes_change δ persist id s1 fails after answer h.backed
  rw [hsame] at hcases
  rcases hcases with ⟨hanswer, hstate⟩ | ⟨hanswer, hchanges⟩
  · rw [hanswer, hstate]
    refine ⟨⟨_, ?_, fun account hm => (hthrew account).symm ▸ hm⟩, fun _ => ⟨hfiles, lookup_set_self _ _ _⟩⟩
    have hcache : Changes persist s1 id (record persist s1 id) _ := changes_cache h.backed
    rw [hsame] at hcache
    exact changes_trans h hcache
  · rw [hanswer]
    exact ⟨⟨after, changes_trans h hchanges, hnext⟩, fun hthrows => nomatch hthrows⟩

theorem existing_cases (persist : Bool) (s : State δ) (id : String) :
    existing persist s id = none ∨ existing persist s id = some (record persist s id) := by
  rw [record]
  cases existing persist s id with
  | none => exact .inl rfl
  | some payer => exact .inr rfl

theorem step_follows (hb : Backed persist s) {e : Event δ} (hroom : Roomy persist s e) (hid : e.payer = some id) :
    Follows persist s e id (step persist s e).1 (step persist s e).2 := by
  cases e with
  | restart => cases hid
  | getPending payer =>
    cases hid
    exact follows_same (getPending_spec hb).2 (fun h => nomatch h) fun _ _ => rfl
  | recordPending payer charge fails =>
    obtain rfl := Option.some.inj hid
    obtain ⟨hread, hfiles, hchanges⟩ : _ ∧ _ ∧ Changes persist s payer _ _ := readPayer_spec hb hroom
    rw [step, recordPending]
    dsimp only
    rw [hread]
    cases howed : (record persist s payer).pending with
    | none =>
      refine follows_change hchanges hfiles (fun _ => rfl) fun account hm => ⟨?_, hm.2⟩
      rw [Account.next, ← hm.1, howed]
      rfl
    | some owed =>
      dsimp only
      split
      · rename_i hle
        refine follows_same hchanges (fun h => nomatch h) fun account hm => ?_
        rw [Account.next, ← hm.1, howed, larger, if_pos hle, ← howed, hm.1]
      · rename_i hgt
        refine follows_change hchanges hfiles (fun _ => rfl) fun account hm => ⟨?_, hm.2⟩
        rw [Account.next, ← hm.1, howed, larger, if_neg hgt]
  | markSettled payer fails =>
    obtain rfl := Option.some.inj hid
    rw [step, markSettled]
    rcases existing_cases persist s payer with hnone | hsome
    · rw [hnone]
      exact follows_same (changes_same hb) (fun h => nomatch h) fun _ _ => rfl
    · rw [hsome]
      refine follows_change (changes_same hb) rfl (fun _ => rfl) fun account hm => ⟨rfl, ?_⟩
      exact congrArg (· + 1) hm.2
  | markSettleFailed payer fails =>
    obtain rfl := Option.some.inj hid
    rw [step, markSettleFailed]
    rcases existing_cases persist s payer with hnone | hsome
    · rw [hnone]
      exact follows_same (changes_same hb) (fun h => nomatch h) fun _ _ => rfl
    · rw [hsome]
      dsimp only
      cases howed : (record persist s payer).pending with
      | none => exact follows_same (changes_same hb) (fun h => nomatch h) fun _ _ => rfl
      | some owed =>
        refine follows_change (changes_same hb) rfl (fun _ => rfl) fun account hm => ⟨?_, hm.2⟩
        rw [Account.next, ← hm.1, howed]
        rfl

/-! ## Every run keeps the accounts -/

/-- The ledger shows every account. -/
structure Kept (persist : Bool) (t : Tracked δ) : Prop where
  backed : Backed persist t.1
  shown : ∀ id, Matches (record persist t.1 id) (t.2 id)

theorem start_kept : Kept persist (start : Tracked δ) := by
  refine ⟨fun _ _ _ h => (nomatch h), fun id => ?_⟩
  have hfresh : record persist (start : Tracked δ).1 id = fresh := by
    refine (record_of_none rfl).trans ?_
    rw [loadPayer]
    split <;> rfl
  rw [hfresh]
  exact ⟨rfl, rfl⟩

theorem track_kept {t : Tracked δ} {e : Event δ} (hroom : Roomy persist t.1 e) (h : Kept persist t) :
    Kept persist (track persist t e) := by
  cases hid : e.payer with
  | none =>
    cases e with
    | restart =>
      obtain rfl : persist = true := hroom
      have hempty : Backed true ({ t.1 with ledger := ∅ } : State δ) := fun _ _ _ hl => nomatch hl
      refine ⟨hempty, fun id => ?_⟩
      have hsame : record true ({ t.1 with ledger := ∅ } : State δ) id = record true t.1 id :=
        (hempty.record_eq id).trans (h.backed.record_eq id).symm
      show Matches (record true ({ t.1 with ledger := ∅ } : State δ) id) _
      rw [hsame]
      exact h.shown id
    | _ => cases hid
  | some id =>
    obtain ⟨after, hchanges, hmatch⟩ := (step_follows h.backed hroom hid).account
    refine ⟨hchanges.backed, fun id' => ?_⟩
    show Matches (record persist (step persist t.1 e).2 id') (if e.payer = some id' then _ else _)
    rw [hchanges.record, hid]
    by_cases hsame : id' = id
    · rw [hsame, if_pos rfl, Function.update_self]
      exact hmatch _ (h.shown id)
    · rw [if_neg (fun heq => hsame (Option.some.inj heq).symm), Function.update_of_ne hsame]
      exact h.shown id'

theorem run_kept {events : List (Event δ)} (h : Along (track persist) (fun t e => Roomy persist t.1 e) start events) :
    Kept persist (run (track persist) start events) :=
  h.keeps (Kept persist) start_kept fun _ _ => track_kept

/-- Reached by a run in which the map has room or files behind it. -/
def Reached (persist : Bool) (t : Tracked δ) : Prop :=
  ∃ events, Along (track persist) (fun t e => Roomy persist t.1 e) start events ∧ t = run (track persist) start events

/-- **Debts are kept**, and a call that throws leaves the record of its payer as it was. -/
theorem debts_kept (persist : Bool) (t : Tracked δ) (h : Reached persist t) :
    (∀ id, (getPending persist id t.1).1 = (t.2 id).owed ∧ (record persist t.1 id).settled = (t.2 id).settled)
      ∧ ∀ e id, Roomy persist t.1 e → e.payer = some id → (step persist t.1 e).1 = .threw →
        (step persist t.1 e).2.files = t.1.files
          ∧ (step persist t.1 e).2.ledger.lookup id = some (record persist t.1 id) := by
  obtain ⟨events, halong, rfl⟩ := h
  have hkept := run_kept halong
  constructor
  · intro id
    exact ⟨(getPending_spec hkept.backed).1.trans (hkept.shown id).1, (hkept.shown id).2⟩
  · intro e id hroom hid hthrew
    exact (step_follows hkept.backed hroom hid).threw hthrew

def owedOne : PendingCharge Unit := ⟨1, (), 0⟩

/-- Two payers: a write of the first fails and a smaller charge of the second changes nothing; the second fails to
    settle, the first settles, the process restarts, and the first is charged again. -/
def chargedEvents : List (Event Unit) := [.recordPending "key:a" owedOne false, .recordPending "key:b" ⟨5, (), 0⟩ false,
  .recordPending "key:a" ⟨3, (), 0⟩ true, .recordPending "key:b" ⟨2, (), 0⟩ false, .markSettleFailed "key:b" false,
  .markSettled "key:a" false, .restart, .recordPending "key:a" ⟨4, (), 0⟩ false]

def charged : Tracked Unit := run (track true) start chargedEvents

theorem debts_kept_sample : (getPending true "key:a" charged.1).1 = some ⟨4, (), 0⟩
    ∧ (record true charged.1 "key:a").settled = 1 ∧ (getPending true "key:b" charged.1).1 = some ⟨5, (), 1⟩
    ∧ (record true charged.1 "key:b").settled = 0
    ∧ (step true charged.1 (.recordPending "key:b" ⟨9, (), 0⟩ true)).2.files = charged.1.files
    ∧ (step true charged.1 (.recordPending "key:b" ⟨9, (), 0⟩ true)).2.ledger.lookup "key:b"
      = some (record true charged.1 "key:b") := by
  have hreached : Reached true charged :=
    ⟨chargedEvents, ⟨.inl rfl, .inl rfl, .inl rfl, .inl rfl, trivial, trivial, rfl, .inl rfl, trivial⟩, rfl⟩
  obtain ⟨hshown, hthrew⟩ := debts_kept true charged hreached
  have haccounts : (charged.2 "key:a").owed = some ⟨4, (), 0⟩ ∧ (charged.2 "key:a").settled = 1
      ∧ (charged.2 "key:b").owed = some ⟨5, (), 1⟩ ∧ (charged.2 "key:b").settled = 0 := by
    decide +kernel
  obtain ⟨howedA, hsettledA, howedB, hsettledB⟩ := haccounts
  obtain ⟨hfiles, hledger⟩ := hthrew (.recordPending "key:b" ⟨9, (), 0⟩ true) "key:b" (.inl rfl) rfl (by rfl)
  exact ⟨(hshown _).1.trans howedA, (hshown _).2.trans hsettledA, (hshown _).1.trans howedB,
    (hshown _).2.trans hsettledB,
    hfiles, hledger⟩

/-! ## One payer too many -/

def payerName (n : ℕ) : String := String.ofList (List.replicate n 'a')

/-- One charge for each of so many payers. -/
def churn (n : ℕ) : List (Event Unit) := (List.range n).map fun i => .recordPending (payerName i) owedOne false

theorem payerName_inj {i j : ℕ} (h : payerName i = payerName j) : i = j := by
  have hlength := congrArg (fun name : String => name.toList.length) h
  simpa [payerName] using hlength

/-- A map in memory that holds the first payers, all owing. -/
structure Filled (n : ℕ) (t : Tracked Unit) : Prop where
  size : size t.1.ledger = n
  owing : ∀ id payer, t.1.ledger.lookup id = some payer → payer.pending.isSome = true ∧ ∃ i < n, id = payerName i
  first : (t.2 (payerName 0)).owed = if n = 0 then none else some owedOne

theorem Filled.absent {n : ℕ} {t : Tracked Unit} (h : Filled n t) : t.1.ledger.lookup (payerName n) = none := by
  cases hl : t.1.ledger.lookup (payerName n) with
  | none => rfl
  | some payer =>
    obtain ⟨-, i, hi, hname⟩ := h.owing _ _ hl
    exact absurd (payerName_inj hname) (Nat.ne_of_gt hi)

/-- A charge for a payer the map does not hold. -/
theorem step_absent {n : ℕ} {t : Tracked Unit} (h : Filled n t) :
    step false t.1 (.recordPending (payerName n) owedOne false) = (.returned (some owedOne),
        ⟨set (set (if MAX_PAYERS ≤ n then prune t.1.ledger else t.1.ledger) (payerName n) fresh) (payerName n)
          ⟨some owedOne, 0, 0⟩, t.1.files⟩) := by
  rw [step, recordPending, readPayer, h.absent, ← h.size]
  rfl

theorem track_first {n : ℕ} {t : Tracked Unit} (h : Filled n t) :
    ((track false t (.recordPending (payerName n) owedOne false)).2 (payerName 0)).owed = some owedOne := by
  rw [track, step_absent h]
  show (if some (payerName n) = some (payerName 0) then _ else _ : Account Unit).owed = _
  have hfirst := h.first
  by_cases hn : n = 0
  · subst hn
    rw [if_pos rfl] at hfirst ⊢
    rw [Account.next, hfirst]
    rfl
  · rw [if_neg hn] at hfirst
    rw [if_neg (fun hid => hn (payerName_inj (Option.some.inj hid)))]
    exact hfirst

theorem run_churn (n : ℕ) : run (track false) start (churn (n + 1))
    = track false (run (track false) start (churn n)) (.recordPending (payerName n) owedOne false) := by
  rw [churn, List.range_succ, List.map_append]
  exact run_concat _ _ _

theorem churn_filled {n : ℕ} (h : n ≤ MAX_PAYERS) : Filled n (run (track false) start (churn n)) := by
  induction n with
  | zero => exact ⟨rfl, fun _ _ hl => (nomatch hl), rfl⟩
  | succ n ih =>
    have hn := ih (Nat.le_of_succ_le h)
    have hstep := step_absent hn
    rw [if_neg (Nat.not_le.mpr h)] at hstep
    rw [run_churn]
    refine ⟨?_, ?_, (track_first hn).trans (if_neg (Nat.succ_ne_zero n)).symm⟩
    · rw [track, hstep]
      rw [size_set, lookup_set_self, if_pos (Option.isSome_some), size_set, hn.absent]
      exact congrArg (· + 1) hn.size
    · intro id payer hl
      rw [track, hstep] at hl
      by_cases hid : id = payerName n
      · rw [hid, lookup_set_self] at hl
        exact ⟨by rw [← Option.some.inj hl]; rfl, n, Nat.lt_succ_self n, hid⟩
      · rw [lookup_set_ne _ _ hid, lookup_set_ne _ _ hid] at hl
        obtain ⟨howing, i, hi, hname⟩ := hn.owing id payer hl
        exact ⟨howing, i, Nat.lt_succ_of_lt hi, hname⟩

/-- A full map of debts is cleared. -/
theorem prune_owing {ledger : OrderedMap String (Payer δ)} (hfull : MAX_PAYERS ≤ size ledger)
    (howing : ∀ id payer, ledger.lookup id = some payer → payer.pending.isSome = true) : prune ledger = ∅ := by
  have hkeep : ledger.entries.filter (fun e => e.2.pending.isSome) = ledger.entries :=
    List.filter_eq_self.mpr fun e he => howing e.1 e.2 (AList.mem_lookup_iff.mpr he)
  have hsize : size (keep (fun payer => payer.pending.isSome) ledger) = size ledger := congrArg List.length hkeep
  rw [prune, if_pos (hsize ▸ hfull)]

/-- The charge for one more payer clears it, the first one's debt with it. -/
theorem getPending_forgiven {n : ℕ} {t : Tracked Unit} (h : Filled n t) (hfull : MAX_PAYERS ≤ n) :
    (getPending false (payerName 0) (track false t (.recordPending (payerName n) owedOne false)).1).1 = none := by
  have hstep := step_absent h
  rw [if_pos hfull, prune_owing (h.size ▸ hfull) fun id payer hl => (h.owing id payer hl).1] at hstep
  have hother : payerName 0 ≠ payerName n :=
    fun hname => absurd (payerName_inj hname) (Nat.ne_of_lt (Nat.lt_of_lt_of_le (by decide) hfull))
  rw [track, hstep, getPending, lookup_set_ne _ _ hother, lookup_set_ne _ _ hother]
  rfl

/-- In memory alone, the charge of the first payer is gone when one more than the map holds is charged. -/
theorem cap_forgives : (getPending false (payerName 0) (run (track false) start (churn (MAX_PAYERS + 1))).1).1 = none
      ∧ ((run (track false) start (churn (MAX_PAYERS + 1))).2 (payerName 0)).owed = some owedOne := by
  have hfull := churn_filled (le_refl MAX_PAYERS)
  rw [run_churn]
  exact ⟨getPending_forgiven hfull (le_refl _), track_first hfull⟩

end RollingSettlement
