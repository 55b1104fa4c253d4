import Chit402.AnchorAnswerProofs
import Chit402.JsTextProofs
import Chit402.SupersessionProofs
import Chit402.TraceProofs

/-! # External completions and their receipts

    A completion that another board reports gets one signed receipt.  The request
    looks for the completion and for its payment, builds and signs a receipt,
    writes the books, and only then stores the row that the next look finds.
    Requests interleave between these steps. -/

namespace InboundReceipt

open OrderedMap Supersession

/-! ## The request -/

/-- What the checks take from the language. -/
structure Js where
  toLowerCase : String → String
  /-- `BigInt(text)`, when that does not throw. -/
  bigInt : String → Option ℤ

/-- `String(value)` -/
def shown : Field → String
  | .missing => ""
  | .string s => s
  | .other s _ => s

/-- `String(value || '').trim()` -/
def trimmed (value : Field) : String := if truthy value then trim (shown value) else ""

structure Body where
  source : Field
  external_id : Field
  externalId : Field
  payer : Field
  payer_wallet : Field
  payee : Field
  winner : Field
  payee_wallet : Field
  amount : Field
  payment_ref : Field
  payment_tx : Field
  tx : Field
  network : Field
  output_hash : Field
  output_sha256 : Field

structure Failure where
  status : ℕ
  error : String
  message : String
  deriving DecidableEq

structure Admitted where
  source : String
  externalId : String
  payer : String
  payee : String
  amount : ℤ
  paymentRef : String
  outputHash : String
  deriving DecidableEq

/-- `[a-z0-9._-]+` -/
def isSource (s : List Char) : Bool :=
  s ≠ [] && s.all fun c => ('a' ≤ c && c ≤ 'z') || c.isDigit || c = '.' || c = '_' || c = '-'

/-- `0x[0-9a-fA-F]{40}` -/
def isWallet : List Char → Bool
  | '0' :: 'x' :: hex => hex.length = 40 && hex.all JsText.isHexDigit
  | _ => false

/-- `(base|solana):[A-Za-z0-9]+` -/
def isPaymentRef (s : List Char) : Bool :=
  match (AnchorRetry.afterText "base:" s).or (AnchorRetry.afterText "solana:" s) with
  | none => false
  | some tx => tx ≠ [] && tx.all Char.isAlphanum

section Checks

variable (js : Js)

def paymentRefOf (body : Body) : String :=
  if truthy body.payment_ref then trim (shown body.payment_ref)
  else
    let tx := trimmed (either body.payment_tx body.tx)
    if tx = "" then ""
    else if tx.toList.contains ':' then tx
    else js.toLowerCase (trimmed (either body.network (.string "base"))) ++ ":" ++ tx

def normalizeHash (value : Field) : Option String :=
  let s := AnchorAnswer.strip0x (js.toLowerCase (trimmed value))
  if AnchorAnswer.isHex64 s.toList then some ("0x" ++ s) else none

def checked (body : Body) : Except Failure Admitted :=
  let source := js.toLowerCase (trimmed body.source)
  if source = "" ∨ 64 < JsText.length source ∨ isSource source.toList = false then
    .error ⟨400, "source_required", "source is a short name such as daydreams or agent.market"⟩
  else
    let externalId := trimmed (either body.external_id body.externalId)
    if externalId = "" ∨ 128 < JsText.length externalId then .error ⟨400, "external_id_required",
      "external_id is required"⟩
    else
      let payer := trimmed (either body.payer body.payer_wallet)
      let payee := trimmed (either body.payee (either body.winner body.payee_wallet))
      if isWallet payer.toList = false ∨ isWallet payee.toList = false then
        .error ⟨400, "wallet_required", "payer and payee must be 0x wallet addresses"⟩
      else if js.toLowerCase payer = js.toLowerCase payee then .error ⟨400, "same_wallet",
        "payer and payee must differ"⟩
      else
        let amount := (js.bigInt (shown body.amount)).getD (-1)
        if amount < 1 then .error ⟨400, "amount_required", "amount is atomic USDC"⟩
        else
          let paymentRef := paymentRefOf js body
          if isPaymentRef paymentRef.toList = false ∨ 180 < JsText.length paymentRef then
            .error ⟨400, "payment_ref_required", "payment_ref is base:<tx> or solana:<tx>"⟩
          else match normalizeHash js (either body.output_hash body.output_sha256) with
            | none => .error ⟨400, "output_hash_required", "output_hash must be 32 bytes of hex"⟩
            | some outputHash => .ok ⟨source, externalId, payer, payee, amount, paymentRef, outputHash⟩

end Checks

def Admitted.key (a : Admitted) : String := a.source ++ ":" ++ a.externalId

/-- The transaction a reference names: hex digits have no case, base58 has. -/
def transactionOf (paymentRef : String) : String :=
  match AnchorRetry.afterText "base:" paymentRef.toList with
  | some _ => String.ofList (paymentRef.toList.map Char.toLower)
  | none => paymentRef

/-! ## The store -/

/-- A signed payout. The task id is random. -/
structure Payout where
  task_id : ℕ
  payer_wallet : String
  payment_ref : String
  amount : ℤ
  winner_agent_id : Option ℕ
  winner_wallet : String
  output_hash : String
  deriving DecidableEq

structure Row where
  id : ℕ
  key : String
  payment_ref : String
  source : String
  external_id : String
  payout : Payout
  deriving DecidableEq

structure Store where
  inbound : OrderedMap ℕ Row
  inboundByKey : OrderedMap String ℕ

def Store.findInbound (s : Store) (key : String) : Option Row := (s.inboundByKey.lookup key).bind s.inbound.lookup

/-- The row, under each of its keys. -/
def Store.insertInbound (s : Store) (row : Row) : Store where
  inbound := set s.inbound row.id row
  inboundByKey := set (set s.inboundByKey row.key row.id) row.payment_ref row.id

/-- `findInbound(key) || findInbound(paymentRef)` -/
def Store.existing (s : Store) (a : Admitted) : Option Row := (s.findInbound a.key).or (s.findInbound a.paymentRef)

/-! ## Requests in their steps -/

/-- A row of a seat's book. -/
structure Close where
  agentId : ℕ
  taskId : ℕ
  payee : Bool
  paymentRef : Option String
  deriving DecidableEq

/-- A request waits for its receipt, or for what it still has to write. -/
inductive Stage where
  | building
  | closing (writes : List Close)
  deriving DecidableEq

structure Running where
  request : Admitted
  stage : Stage

structure Signed where
  request : Admitted
  payout : Payout

inductive Answer where
  | rejected (failure : Failure)
  | replay (request : Admitted) (payout : Payout)
  | created (request : Admitted) (payout : Payout)
  /-- A step threw. -/
  | internal

structure World where
  jobs : Store
  running : ℕ → Option Running
  tickets : ℕ
  ledger : List Close
  /-- Receipts in the order they were signed. -/
  signed : List Signed
  answers : List Answer
  /-- The requests that passed the checks. -/
  seen : List Admitted

def start : World := ⟨⟨∅, ∅⟩, fun _ => none, 0, [], [], [], []⟩

inductive Event where
  /-- A request comes in, its caller refused or not. -/
  | request (refused : Option Failure) (body : Body)
  /-- What a request waits for is there, or fails. -/
  | resume (ticket : ℕ) (ok : Bool)

section Run

variable (js : Js) (getByWallet : String → Option ℕ)

def payoutOf (a : Admitted) (ticket : ℕ) : Payout :=
  ⟨ticket, a.payer, a.paymentRef, a.amount, getByWallet a.payee, a.payee, a.outputHash⟩

/-- The books to write: the payer's with the payment, then another payee's. -/
def closesOf (a : Admitted) (ticket : ℕ) : List Close :=
  let payer := getByWallet a.payer
  let payee := (getByWallet a.payee).filter fun id => some id ≠ payer
  (payer.map fun id => ⟨id, ticket, false, some a.paymentRef⟩).toList
    ++ (payee.map fun id => ⟨id, ticket, true, none⟩).toList

def rowOf (a : Admitted) (ticket : ℕ) : Row :=
  ⟨ticket, a.key, a.paymentRef, a.source, a.externalId, payoutOf getByWallet a ticket⟩

/-- A request past its checks, until the first wait. -/
def accept (w : World) (a : Admitted) : World :=
  let w := { w with seen := w.seen ++ [a] }
  match w.jobs.existing a with
  | some row => { w with answers := w.answers ++ [.replay a row.payout] }
  | none => { w with running := Function.update w.running w.tickets (some ⟨a, .building⟩), tickets := w.tickets + 1 }

def arrive (w : World) (body : Body) : World :=
  match checked js body with
  | .error failure => { w with answers := w.answers ++ [.rejected failure] }
  | .ok a => accept w a

/-- A request ends. -/
def finish (w : World) (ticket : ℕ) (answer : Answer) : World := { w with
  running := Function.update w.running ticket none
  answers := w.answers ++ [answer] }

def sign (w : World) (ticket : ℕ) (a : Admitted) : World := { w with
  signed := w.signed ++ [⟨a, payoutOf getByWallet a ticket⟩]
  running := Function.update w.running ticket (some ⟨a, .closing (closesOf getByWallet a ticket)⟩) }

def write (w : World) (ticket : ℕ) (a : Admitted) (close : Close) (rest : List Close) : World := { w with
  ledger := w.ledger ++ [close]
  running := Function.update w.running ticket (some ⟨a, .closing rest⟩) }

/-- The row is in memory when its save fails. -/
def store (w : World) (ticket : ℕ) (a : Admitted) (saved : Bool) : World :=
  finish { w with jobs := w.jobs.insertInbound (rowOf getByWallet a ticket) } ticket
    (if saved then .created a (payoutOf getByWallet a ticket) else .internal)

def resume (w : World) (ticket : ℕ) (ok : Bool) : World :=
  match w.running ticket with
  | none => w
  | some ⟨a, .building⟩ => if ok then sign getByWallet w ticket a else finish w ticket .internal
  | some ⟨a, .closing (close :: rest)⟩ => if ok then write w ticket a close rest else finish w ticket .internal
  | some ⟨a, .closing []⟩ => store getByWallet w ticket a ok

def step (w : World) : Event → World
  | .request (some failure) _ => { w with answers := w.answers ++ [.rejected failure] }
  | .request none body => arrive js w body
  | .resume ticket ok => resume getByWallet w ticket ok

end Run

/-! ## What is asked of a run -/

def Answer.receipted : Answer → Option (Admitted × Payout)
  | .replay a payout | .created a payout => some (a, payout)
  | .rejected _ | .internal => none

/-- Two requests are about one completion or one transaction. -/
def Same (a b : Admitted) : Prop :=
  a.source = b.source ∧ a.externalId = b.externalId ∨ transactionOf a.paymentRef = transactionOf b.paymentRef

/-- **Once**: one receipt for a completion and one for a transaction, and every answer with a
    receipt has the one that was signed for its completion and its transaction. -/
structure Once (w : World) : Prop where
  completion : (w.signed.map fun s => (s.request.source, s.request.externalId)).Nodup
  transaction : (w.signed.map fun s => transactionOf s.request.paymentRef).Nodup
  repeated : ∀ answer ∈ w.answers, ∀ a payout, answer.receipted = some (a, payout) →
    (∃ s ∈ w.signed, s.payout = payout ∧ Same s.request a) ∧ ∀ s ∈ w.signed, Same s.request a → s.payout = payout

/-- Two requests spell alike: one transaction has one reference, one completion has one
    payment, and no reference is spelled like a completion's key. -/
def Alike (a b : Admitted) : Prop :=
  (transactionOf a.paymentRef = transactionOf b.paymentRef → a.paymentRef = b.paymentRef)
  ∧ (a.key = b.key → a.paymentRef = b.paymentRef)
  ∧ a.key ≠ b.paymentRef ∧ b.key ≠ a.paymentRef

/-- **What is asked of an event**: a request spells like those before it, comes in while no
    other of its completion or payment is under way, and no write fails once a receipt is signed. -/
def Orderly (js : Js) (w : World) : Event → Prop
  | .request none body => ∀ a, checked js body = .ok a →
      (∀ b ∈ w.seen, Alike b a) ∧ a.key ≠ a.paymentRef
      ∧ ∀ n r, w.running n = some r → r.request.key ≠ a.key ∧ r.request.paymentRef ≠ a.paymentRef
  | .resume ticket false => ∀ a close rest, w.running ticket ≠ some ⟨a, .closing (close :: rest)⟩
  | _ => True

/-! ## What an orderly run keeps -/

variable {a : Admitted} {row : Row} {jobs : Store} {s : String} {n : ℕ}

section Keeps

variable {js : Js} {getByWallet : String → Option ℕ} {w : World}

/-- The store finds a row under its keys and nothing else. -/
structure Indexed (jobs : Store) : Prop where
  found : ∀ s id, jobs.inboundByKey.lookup s = some id →
    ∃ row, jobs.inbound.lookup id = some row ∧ (s = row.key ∨ s = row.payment_ref)
  kept : ∀ id row, jobs.inbound.lookup id = some row →
    jobs.inboundByKey.lookup row.key = some id ∧ jobs.inboundByKey.lookup row.payment_ref = some id

/-- A request is receipted: its row is stored, or it still has to write. -/
def Receipted (getByWallet : String → Option ℕ) (w : World) (s : Signed) : Prop :=
  (∃ id row, w.jobs.inbound.lookup id = some row ∧ row.payout = s.payout ∧ row.key = s.request.key
    ∧ row.payment_ref = s.request.paymentRef)
  ∨ ∃ n writes, w.running n = some ⟨s.request, .closing writes⟩ ∧ s.payout = payoutOf getByWallet s.request n

structure Kept (getByWallet : String → Option ℕ) (w : World) : Prop where
  indexed : Indexed w.jobs
  tickets : ∀ n r, w.running n = some r → n < w.tickets
  rows_lt : ∀ id row, w.jobs.inbound.lookup id = some row → id < w.tickets ∧ w.running id = none
  seen : ∀ n r, w.running n = some r → r.request ∈ w.seen
  apart : ∀ m n r r', w.running m = some r → w.running n = some r' → m ≠ n →
    r.request.key ≠ r'.request.key ∧ r.request.paymentRef ≠ r'.request.paymentRef
  fresh : ∀ n r, w.running n = some r → w.jobs.inboundByKey.lookup r.request.key = none
    ∧ w.jobs.inboundByKey.lookup r.request.paymentRef = none
  alike : ∀ a ∈ w.seen, ∀ b ∈ w.seen, Alike a b
  rows : ∀ id row, w.jobs.inbound.lookup id = some row →
    ∃ s ∈ w.signed, s.payout = row.payout ∧ s.request.key = row.key ∧ s.request.paymentRef = row.payment_ref
  signed : ∀ s ∈ w.signed, s.request ∈ w.seen ∧ Receipted getByWallet w s
  closing : ∀ n a writes, w.running n = some ⟨a, .closing writes⟩ → ⟨a, payoutOf getByWallet a n⟩ ∈ w.signed
  keys : (w.signed.map fun s => s.request.key).Nodup
  transactions : (w.signed.map fun s => transactionOf s.request.paymentRef).Nodup
  answers : ∀ answer ∈ w.answers, ∀ a payout, answer.receipted = some (a, payout) →
    a ∈ w.seen ∧ ∃ s ∈ w.signed, s.payout = payout ∧ s.request.paymentRef = a.paymentRef

theorem Kept.once (h : Kept getByWallet w) : Once w where
  completion := by
    have hkeys := h.keys
    rw [show (fun s : Signed => s.request.key)
      = (fun p : String × String => p.1 ++ ":" ++ p.2) ∘ fun s => (s.request.source, s.request.externalId) from rfl,
      ← List.map_map] at hkeys
    exact List.Nodup.of_map _ hkeys
  transaction := h.transactions
  repeated := by
    intro answer hanswer a payout hpayout
    obtain ⟨ha, s, hs, hspayout, hsref⟩ := h.answers answer hanswer a payout hpayout
    refine ⟨⟨s, hs, hspayout, .inr (congrArg transactionOf hsref)⟩, fun t ht hsame => ?_⟩
    have htref : transactionOf t.request.paymentRef = transactionOf s.request.paymentRef := by
      rw [hsref]
      obtain ⟨hsource, hexternal⟩ | htx := hsame
      · refine congrArg transactionOf ((h.alike t.request (h.signed t ht).1 a ha).2.1 ?_)
        rw [Admitted.key, Admitted.key, hsource, hexternal]
      · exact htx
    rw [List.inj_on_of_nodup_map h.transactions ht hs htref]
    exact hspayout

/-! ## The store -/

theorem Indexed.findInbound (h : Indexed jobs) (hfind : jobs.findInbound s = some row) :
    (∃ id, jobs.inbound.lookup id = some row) ∧ (s = row.key ∨ s = row.payment_ref) := by
  obtain ⟨id, hid, hrow⟩ := Option.bind_eq_some_iff.mp hfind
  obtain ⟨found, hfound, hkey⟩ := h.found s id hid
  cases hfound.symm.trans hrow
  exact ⟨⟨id, hrow⟩, hkey⟩

theorem Indexed.findInbound_none (h : Indexed jobs) (hfind : jobs.findInbound s = none) :
    jobs.inboundByKey.lookup s = none := by
  cases hid : jobs.inboundByKey.lookup s with
  | none => rfl
  | some id =>
    obtain ⟨row, hrow, -⟩ := h.found s id hid
    rw [Store.findInbound, hid, Option.bind_some, hrow] at hfind
    cases hfind

theorem Indexed.existing_none (h : Indexed jobs) (hnone : jobs.existing a = none) :
    jobs.inboundByKey.lookup a.key = none ∧ jobs.inboundByKey.lookup a.paymentRef = none := by
  obtain ⟨hkey, href⟩ := Option.or_eq_none_iff.mp hnone
  exact ⟨h.findInbound_none hkey, h.findInbound_none href⟩

/-- A row under new keys leaves the others where they are. -/
theorem Indexed.insert (h : Indexed jobs) (hid : jobs.inbound.lookup row.id = none)
    (hkey : jobs.inboundByKey.lookup row.key = none) (href : jobs.inboundByKey.lookup row.payment_ref = none) :
    Indexed (jobs.insertInbound row) := by
  have hlookup : ∀ s, (jobs.insertInbound row).inboundByKey.lookup s
      = if s = row.payment_ref then some row.id
        else if s = row.key then some row.id else jobs.inboundByKey.lookup s := by
    intro s
    rw [Store.insertInbound, lookup_set, lookup_set]
  have hinbound : ∀ id, (jobs.insertInbound row).inbound.lookup id =
    if id = row.id then some row else jobs.inbound.lookup id :=
    fun id => lookup_set ..
  constructor
  · intro s id hs
    rw [hlookup] at hs
    by_cases hown : s = row.payment_ref ∨ s = row.key
    · have hrow : row.id = id := by
        split_ifs at hs with h1 h2
        · exact Option.some.inj hs
        · exact Option.some.inj hs
        · exact absurd hown (not_or.mpr ⟨h1, h2⟩)
      rw [hinbound, if_pos hrow.symm]
      exact ⟨row, rfl, hown.symm⟩
    · rw [if_neg fun h => hown (.inl h), if_neg fun h => hown (.inr h)] at hs
      obtain ⟨old, hold, hkeys⟩ := h.found s id hs
      have hne : id ≠ row.id := by
        rintro rfl
        rw [hid] at hold
        cases hold
      rw [hinbound, if_neg hne]
      exact ⟨old, hold, hkeys⟩
  · intro id old hold
    rw [hinbound] at hold
    rw [hlookup, hlookup]
    split_ifs at hold with hne
    · rw [← Option.some.inj hold, hne, if_pos rfl, if_pos rfl, ite_self]
      exact ⟨rfl, rfl⟩
    · obtain ⟨hk, hr⟩ := h.kept id old hold
      have hother : ∀ {s}, jobs.inboundByKey.lookup s = some id → s ≠ row.payment_ref ∧ s ≠ row.key := by
        intro s hs
        constructor
        · rintro rfl
          rw [href] at hs
          cases hs
        · rintro rfl
          rw [hkey] at hs
          cases hs
      rw [if_neg (hother hk).1, if_neg (hother hk).2, if_neg (hother hr).1, if_neg (hother hr).2]
      exact ⟨hk, hr⟩

/-! ## Steps -/

theorem running_update {m : ℕ} {v : Option Running} {r : Running} (h : Function.update w.running n v m = some r) :
    (m = n ∧ v = some r) ∨ (m ≠ n ∧ w.running m = some r) := by
  by_cases hm : m = n
  · rw [hm, Function.update_self] at h
    exact .inl ⟨hm, h⟩
  · rw [Function.update_of_ne hm] at h
    exact .inr ⟨hm, h⟩

section

variable (h : Kept getByWallet w)
include h

theorem Kept.transaction_ne {b : Admitted} (ha : a ∈ w.seen) (hb : b ∈ w.seen)
    (hne : a.paymentRef ≠ b.paymentRef) : transactionOf a.paymentRef ≠ transactionOf b.paymentRef := fun heq =>
  hne ((h.alike a ha b hb).1 heq)

/-- A request under way without a receipt shares nothing with the receipted ones. -/
theorem Kept.unsigned (hrun : w.running n = some ⟨a, .building⟩) :
    ∀ s ∈ w.signed, s.request.key ≠ a.key ∧ s.request.paymentRef ≠ a.paymentRef := by
  intro s hs
  obtain ⟨hfreshKey, hfreshRef⟩ := h.fresh n _ hrun
  obtain ⟨id, row, hrow, -, hkey, href⟩ | ⟨m, writes, hm, -⟩ := (h.signed s hs).2
  · obtain ⟨hk, hr⟩ := h.indexed.kept id row hrow
    rw [hkey] at hk
    rw [href] at hr
    constructor
    · intro heq
      rw [heq, hfreshKey] at hk
      cases hk
    · intro heq
      rw [heq, hfreshRef] at hr
      cases hr
  · refine h.apart m n _ _ hm hrun ?_
    rintro rfl
    rw [hrun] at hm
    cases hm

theorem Kept.answer {answer : Answer} (hanswer : answer.receipted = none) :
    Kept getByWallet { w with answers := w.answers ++ [answer] } := by
  refine { h with answers := fun given hgiven a payout hpayout => ?_ }
  obtain hgiven | hgiven := List.mem_append.mp hgiven
  · exact h.answers given hgiven a payout hpayout
  · rw [List.mem_singleton.mp hgiven, hanswer] at hpayout
    cases hpayout

/-- A request that passes the checks is seen. -/
theorem Kept.see (halike : ∀ b ∈ w.seen, Alike b a) (hself : a.key ≠ a.paymentRef) :
    Kept getByWallet { w with seen := w.seen ++ [a] } := by
  have hin : ∀ {b}, b ∈ w.seen → b ∈ w.seen ++ [a] := fun hb => List.mem_append_left _ hb
  refine { h with
    seen := fun n r hrun => hin (h.seen n r hrun)
    signed := fun s hs => ⟨hin (h.signed s hs).1, (h.signed s hs).2⟩
    answers := fun answer hanswer b payout hpayout =>
      ⟨hin (h.answers answer hanswer b payout hpayout).1, (h.answers answer hanswer b payout hpayout).2⟩
    alike := ?_ }
  intro b hb c hc
  obtain hb | hb := List.mem_append.mp hb
  · obtain hc | hc := List.mem_append.mp hc
    · exact h.alike b hb c hc
    · rw [List.mem_singleton.mp hc]
      exact halike b hb
  · rw [List.mem_singleton.mp hb]
    obtain hc | hc := List.mem_append.mp hc
    · obtain ⟨htx, hkey, hcross, hcross'⟩ := halike c hc
      exact ⟨fun heq => (htx heq.symm).symm, fun heq => (hkey heq.symm).symm, hcross', hcross⟩
    · rw [List.mem_singleton.mp hc]
      exact ⟨fun _ => rfl, fun _ => rfl, hself, hself⟩

/-- A repeated request has the receipt of the first. -/
theorem Kept.replay (ha : a ∈ w.seen) (hrow : w.jobs.existing a = some row) :
    Kept getByWallet { w with answers := w.answers ++ [.replay a row.payout] } := by
  have hfound : ∃ s, w.jobs.findInbound s = some row ∧ (s = a.key ∨ s = a.paymentRef) := by
    obtain hkey | ⟨-, href⟩ := Option.or_eq_some_iff.mp hrow
    · exact ⟨a.key, hkey, .inl rfl⟩
    · exact ⟨a.paymentRef, href, .inr rfl⟩
  obtain ⟨k, hfind, hk⟩ := hfound
  obtain ⟨⟨id, hin⟩, hkeys⟩ := h.indexed.findInbound hfind
  obtain ⟨s, hs, hpayout, hskey, hsref⟩ := h.rows id row hin
  obtain ⟨-, hkey, hcross, hcross'⟩ := h.alike s.request (h.signed s hs).1 a ha
  have hsame : s.request.paymentRef = a.paymentRef := by
    rw [← hskey, ← hsref] at hkeys
    obtain rfl | rfl := hk
    · obtain heq | heq := hkeys
      · exact hkey heq.symm
      · exact absurd heq hcross'
    · obtain heq | heq := hkeys
      · exact absurd heq.symm hcross
      · exact heq.symm
  refine { h with answers := fun answer hanswer b payout hb => ?_ }
  obtain hanswer | hanswer := List.mem_append.mp hanswer
  · exact h.answers answer hanswer b payout hb
  · rw [List.mem_singleton.mp hanswer] at hb
    cases hb
    exact ⟨ha, s, hs, hpayout, hsame⟩

/-- A request that finds nothing gets under way. -/
theorem Kept.begin (ha : a ∈ w.seen) (hnone : w.jobs.existing a = none)
    (hapart : ∀ n r, w.running n = some r → r.request.key ≠ a.key ∧ r.request.paymentRef ≠ a.paymentRef) :
    Kept getByWallet { w with
      running := Function.update w.running w.tickets (some ⟨a, .building⟩)
      tickets := w.tickets + 1 } := by
  have hold : ∀ {n r}, w.running n = some r → Function.update w.running w.tickets (some ⟨a, .building⟩) n = some r := by
    intro n r hrun
    rw [Function.update_of_ne (Nat.ne_of_lt (h.tickets n r hrun))]
    exact hrun
  refine { h with
    tickets := fun n r hrun => ?_
    rows_lt := fun id row hrow => ?_
    seen := fun n r hrun => ?_
    apart := fun m n r r' hm hn hne => ?_
    fresh := fun n r hrun => ?_
    signed := fun s hs => ⟨(h.signed s hs).1, (h.signed s hs).2.imp_right ?_⟩
    closing := fun n b writes hrun => ?_ }
  · obtain ⟨rfl, -⟩ | ⟨-, hrun⟩ := running_update hrun
    · exact Nat.lt_succ_self _
    · exact Nat.lt_succ_of_lt (h.tickets n r hrun)
  · obtain ⟨hlt, hidle⟩ := h.rows_lt id row hrow
    refine ⟨Nat.lt_succ_of_lt hlt, ?_⟩
    show Function.update w.running w.tickets _ id = none
    rw [Function.update_of_ne (Nat.ne_of_lt hlt)]
    exact hidle
  · obtain ⟨-, hr⟩ | ⟨-, hrun⟩ := running_update hrun
    · rw [← Option.some.inj hr]
      exact ha
    · exact h.seen n r hrun
  · obtain ⟨rfl, hr⟩ | ⟨-, hm⟩ := running_update hm
    · obtain ⟨rfl, -⟩ | ⟨-, hn⟩ := running_update hn
      · exact absurd rfl hne
      · rw [← Option.some.inj hr]
        exact ⟨(hapart n r' hn).1.symm, (hapart n r' hn).2.symm⟩
    · obtain ⟨-, hr'⟩ | ⟨-, hn⟩ := running_update hn
      · rw [← Option.some.inj hr']
        exact hapart m r hm
      · exact h.apart m n r r' hm hn hne
  · obtain ⟨-, hr⟩ | ⟨-, hrun⟩ := running_update hrun
    · rw [← Option.some.inj hr]
      exact h.indexed.existing_none hnone
    · exact h.fresh n r hrun
  · rintro ⟨n, writes, hrun, hpayout⟩
    exact ⟨n, writes, hold hrun, hpayout⟩
  · obtain ⟨-, hr⟩ | ⟨-, hrun⟩ := running_update hrun
    · cases hr
    · exact h.closing n b writes hrun

/-- A request under way takes its next stage. -/
theorem Kept.advance {old new : Stage} (hrun : w.running n = some ⟨a, old⟩)
    {signed : List Signed} (hmore : ∀ s ∈ w.signed, s ∈ signed)
    (hsigned : ∀ s ∈ signed, s ∈ w.signed ∨ s = ⟨a, payoutOf getByWallet a n⟩)
    (hstage : ∃ writes, new = .closing writes) (hown : ⟨a, payoutOf getByWallet a n⟩ ∈ signed)
    (hkeys : (signed.map fun s => s.request.key).Nodup)
    (htransactions : (signed.map fun s => transactionOf s.request.paymentRef).Nodup) : Kept getByWallet { w with
      signed := signed
      running := Function.update w.running n (some ⟨a, new⟩) } := by
  obtain ⟨newWrites, rfl⟩ := hstage
  have hold : ∀ {m r}, Function.update w.running n (some ⟨a, .closing newWrites⟩) m = some r →
      ∃ r', w.running m = some r' ∧ r'.request = r.request := by
    intro m r hm
    obtain ⟨rfl, hr⟩ | ⟨-, hm⟩ := running_update hm
    · rw [← Option.some.inj hr]
      exact ⟨_, hrun, rfl⟩
    · exact ⟨r, hm, rfl⟩
  refine { h with
    tickets := fun m r hm => ?_
    rows_lt := fun id row hrow => ?_
    seen := fun m r hm => ?_
    apart := fun m m' r r' hm hm' hne => ?_
    fresh := fun m r hm => ?_
    rows := fun id row hrow => ?_
    signed := fun s hs => ?_
    closing := fun m b writes hm => ?_
    keys := hkeys
    transactions := htransactions
    answers := fun answer hanswer b payout hb => ?_ }
  · obtain ⟨r', hr', -⟩ := hold hm
    exact h.tickets m r' hr'
  · obtain ⟨hlt, hidle⟩ := h.rows_lt id row hrow
    refine ⟨hlt, ?_⟩
    show Function.update w.running n _ id = none
    rw [Function.update_of_ne, hidle]
    rintro rfl
    rw [hrun] at hidle
    cases hidle
  · obtain ⟨r', hr', heq⟩ := hold hm
    rw [← heq]
    exact h.seen m r' hr'
  · obtain ⟨q, hq, heq⟩ := hold hm
    obtain ⟨q', hq', heq'⟩ := hold hm'
    rw [← heq, ← heq']
    exact h.apart m m' q q' hq hq' hne
  · obtain ⟨r', hr', heq⟩ := hold hm
    rw [← heq]
    exact h.fresh m r' hr'
  · obtain ⟨s, hs, hrest⟩ := h.rows id row hrow
    exact ⟨s, hmore s hs, hrest⟩
  · obtain hs | rfl := hsigned s hs
    · refine ⟨(h.signed s hs).1, (h.signed s hs).2.imp_right ?_⟩
      rintro ⟨m, writes, hm, hpayout⟩
      by_cases hmn : m = n
      · rw [hmn, hrun] at hm
        have ha : a = s.request := congrArg Running.request (Option.some.inj hm)
        refine ⟨n, newWrites, ?_, hmn ▸ hpayout⟩
        rw [← ha]
        exact Function.update_self ..
      · refine ⟨m, writes, ?_, hpayout⟩
        show Function.update w.running n _ m = _
        rw [Function.update_of_ne hmn]
        exact hm
    · exact ⟨h.seen n _ hrun, .inr ⟨n, newWrites, Function.update_self .., rfl⟩⟩
  · obtain ⟨rfl, hr⟩ | ⟨-, hm⟩ := running_update hm
    · rw [← (Running.mk.inj (Option.some.inj hr)).1]
      exact hown
    · exact hmore _ (h.closing m b writes hm)
  · obtain ⟨hb', s, hs, hrest⟩ := h.answers answer hanswer b payout hb
    exact ⟨hb', s, hmore s hs, hrest⟩

/-- **SIGNED**: a receipt is signed for a completion and a transaction that have none. -/
theorem Kept.sign (hrun : w.running n = some ⟨a, .building⟩) : Kept getByWallet (sign getByWallet w n a) := by
  have hother := h.unsigned hrun
  have ha : a ∈ w.seen := h.seen n _ hrun
  refine h.advance hrun (fun s hs => List.mem_append_left _ hs)
    (fun s hs => (List.mem_append.mp hs).imp_right List.mem_singleton.mp) ⟨_, rfl⟩
    (List.mem_append_right _ List.mem_cons_self) ?_ ?_
  · rw [List.map_append, List.map_singleton, List.nodup_append]
    refine ⟨h.keys, List.nodup_singleton _, fun k hk k' hk' heq => ?_⟩
    obtain ⟨s, hs, rfl⟩ := List.mem_map.mp hk
    exact (hother s hs).1 (heq.trans (List.mem_singleton.mp hk'))
  · rw [List.map_append, List.map_singleton, List.nodup_append]
    refine ⟨h.transactions, List.nodup_singleton _, fun k hk k' hk' heq => ?_⟩
    obtain ⟨s, hs, rfl⟩ := List.mem_map.mp hk
    exact h.transaction_ne (h.signed s hs).1 ha (hother s hs).2 (heq.trans (List.mem_singleton.mp hk'))

theorem Kept.write {close : Close} {rest : List Close}
    (hrun : w.running n = some ⟨a, .closing (close :: rest)⟩) : Kept getByWallet (write w n a close rest) := by
  have hkept : Kept getByWallet { w with running := Function.update w.running n (some ⟨a, .closing rest⟩) } :=
    h.advance hrun (fun _ hs => hs) (fun _ hs => .inl hs) ⟨rest, rfl⟩ (h.closing n a _ hrun) h.keys h.transactions
  exact { hkept with }

theorem Kept.fail (hrun : w.running n = some ⟨a, .building⟩) : Kept getByWallet (finish w n .internal) := by
  have hold : ∀ {m r}, Function.update w.running n none m = some r → m ≠ n ∧ w.running m = some r := fun hm =>
    (running_update hm).resolve_left fun h => nomatch h.2
  have hended : Kept getByWallet { w with running := Function.update w.running n none } := by
    refine { h with
      tickets := fun m r hm => h.tickets m r (hold hm).2
      rows_lt := fun id row hrow => ⟨(h.rows_lt id row hrow).1, ?_⟩
      seen := fun m r hm => h.seen m r (hold hm).2
      apart := fun m m' r r' hm hm' => h.apart m m' r r' (hold hm).2 (hold hm').2
      fresh := fun m r hm => h.fresh m r (hold hm).2
      signed := fun s hs => ⟨(h.signed s hs).1, (h.signed s hs).2.imp_right ?_⟩
      closing := fun m a writes hm => h.closing m a writes (hold hm).2 }
    · show Function.update w.running n none id = none
      by_cases hid : id = n
      · rw [hid, Function.update_self]
      · rw [Function.update_of_ne hid]
        exact (h.rows_lt id row hrow).2
    · rintro ⟨m, writes, hm, hpayout⟩
      refine ⟨m, writes, ?_, hpayout⟩
      show Function.update w.running n none m = _
      rw [Function.update_of_ne, hm]
      rintro rfl
      rw [hrun] at hm
      cases hm
  exact hended.answer rfl

/-- **STORED**: the row of a request goes in under keys that were free. -/
theorem Kept.store (hrun : w.running n = some ⟨a, .closing []⟩) (saved : Bool) :
    Kept getByWallet (store getByWallet w n a saved) := by
  have ha : a ∈ w.seen := h.seen n _ hrun
  have hown := h.closing n a [] hrun
  obtain ⟨hfreeKey, hfreeRef⟩ := h.fresh n _ hrun
  have hnone : w.jobs.inbound.lookup n = none := by
    cases hrow : w.jobs.inbound.lookup n with
    | none => rfl
    | some row =>
      have hidle := (h.rows_lt n row hrow).2
      rw [hrun] at hidle
      cases hidle
  have hlookup : ∀ {s}, s ≠ a.key → s ≠ a.paymentRef →
      (w.jobs.insertInbound (rowOf getByWallet a n)).inboundByKey.lookup s = w.jobs.inboundByKey.lookup s := by
    intro s hk hr
    rw [Store.insertInbound, lookup_set_ne _ _ (show s ≠ (rowOf getByWallet a n).payment_ref from hr),
      lookup_set_ne _ _ (show s ≠ (rowOf getByWallet a n).key from hk)]
  have hinbound : ∀ id, (w.jobs.insertInbound (rowOf getByWallet a n)).inbound.lookup id
      = if id = n then some (rowOf getByWallet a n) else w.jobs.inbound.lookup id := fun id => lookup_set ..
  have hself : (w.jobs.insertInbound (rowOf getByWallet a n)).inbound.lookup n = some (rowOf getByWallet a n) := by
    rw [hinbound, if_pos rfl]
  have hstored : ∀ {id row}, w.jobs.inbound.lookup id = some row →
      (w.jobs.insertInbound (rowOf getByWallet a n)).inbound.lookup id = some row := by
    intro id row hrow
    rw [hinbound, if_neg]
    · exact hrow
    · rintro rfl
      rw [hnone] at hrow
      cases hrow
  have hold : ∀ {m r}, Function.update w.running n none m = some r → m ≠ n ∧ w.running m = some r := fun hm =>
    (running_update hm).resolve_left fun h => nomatch h.2
  exact {
    indexed := h.indexed.insert hnone hfreeKey hfreeRef
    tickets := fun m r hm => h.tickets m r (hold hm).2
    rows_lt := by
      intro id row hrow
      have hrow : (if id = n then some (rowOf getByWallet a n) else w.jobs.inbound.lookup id) = some row :=
        (hinbound id).symm.trans hrow
      show id < w.tickets ∧ Function.update w.running n none id = none
      by_cases hid : id = n
      · rw [hid, Function.update_self]
        exact ⟨h.tickets n _ hrun, rfl⟩
      · rw [if_neg hid] at hrow
        rw [Function.update_of_ne hid]
        exact h.rows_lt id row hrow
    seen := fun m r hm => h.seen m r (hold hm).2
    apart := fun m m' r r' hm hm' => h.apart m m' r r' (hold hm).2 (hold hm').2
    fresh := by
      -- another request under way shares no string with the row
      intro m r hm
      obtain ⟨hmn, hm⟩ := hold hm
      obtain ⟨hkeys, hrefs⟩ := h.apart m n r _ hm hrun hmn
      obtain ⟨-, -, hcross, hcross'⟩ := h.alike r.request (h.seen m r hm) a ha
      obtain ⟨hk, hr⟩ := h.fresh m r hm
      exact ⟨(hlookup hkeys hcross).trans hk, (hlookup (Ne.symm hcross') hrefs).trans hr⟩
    alike := h.alike
    rows := by
      intro id row hrow
      have hrow : (if id = n then some (rowOf getByWallet a n) else w.jobs.inbound.lookup id) = some row :=
        (hinbound id).symm.trans hrow
      split_ifs at hrow with hid
      · cases hrow
        exact ⟨_, hown, rfl, rfl, rfl⟩
      · exact h.rows id row hrow
    signed := by
      intro s hs
      refine ⟨(h.signed s hs).1, ?_⟩
      obtain ⟨id, row, hrow, hrest⟩ | ⟨m, writes, hm, hpayout⟩ := (h.signed s hs).2
      · exact .inl ⟨id, row, hstored hrow, hrest⟩
      · by_cases hmn : m = n
        · rw [hmn, hrun] at hm
          have hrequest : a = s.request := congrArg Running.request (Option.some.inj hm)
          refine .inl ⟨n, _, hself, ?_, ?_, ?_⟩
          · rw [hpayout, hmn, ← hrequest]
            rfl
          · rw [← hrequest]
            rfl
          · rw [← hrequest]
            rfl
        · refine .inr ⟨m, writes, ?_, hpayout⟩
          show Function.update w.running n none m = _
          rw [Function.update_of_ne hmn]
          exact hm
    closing := fun m b writes hm => h.closing m b writes (hold hm).2
    keys := h.keys
    transactions := h.transactions
    answers := by
      intro answer hanswer b payout hb
      obtain hanswer | hanswer := List.mem_append.mp hanswer
      · exact h.answers answer hanswer b payout hb
      · rw [List.mem_singleton.mp hanswer] at hb
        cases saved with
        | false => cases hb
        | true =>
          cases hb
          exact ⟨ha, _, hown, rfl, rfl⟩ }

/-- **STEP**: an orderly event keeps what is kept. -/
theorem Kept.step {event : Event} (horderly : Orderly js w event) : Kept getByWallet (step js getByWallet w event) := by
  cases event with
  | request refused body =>
    cases refused with
    | some failure => exact h.answer rfl
    | none =>
      show Kept getByWallet (arrive js w body)
      rw [arrive]
      cases hchecked : checked js body with
      | error failure => exact h.answer rfl
      | ok a =>
        obtain ⟨halike, hself, hapart⟩ := horderly a hchecked
        have hseen := h.see halike hself
        have ha : a ∈ w.seen ++ [a] := List.mem_append_right _ List.mem_cons_self
        dsimp only [accept]
        cases hexisting : w.jobs.existing a with
        | some row => exact hseen.replay ha hexisting
        | none => exact hseen.begin ha hexisting hapart
  | resume ticket ok =>
    show Kept getByWallet (resume getByWallet w ticket ok)
    rw [resume]
    match hrun : w.running ticket, ok with
    | none, _ => exact h
    | some ⟨a, .building⟩, true => exact h.sign hrun
    | some ⟨a, .building⟩, false => exact h.fail hrun
    | some ⟨a, .closing (close :: rest)⟩, true => exact h.write hrun
    | some ⟨a, .closing (close :: rest)⟩, false => exact absurd hrun (horderly a close rest)
    | some ⟨a, .closing []⟩, saved => exact h.store hrun saved

end

theorem Kept.start : Kept getByWallet start where
  indexed := ⟨fun _ _ h => (nomatch h), fun _ _ h => nomatch h⟩
  tickets := fun _ _ h => nomatch h
  rows_lt := fun _ _ h => nomatch h
  seen := fun _ _ h => nomatch h
  apart := fun _ _ _ _ h => nomatch h
  fresh := fun _ _ h => nomatch h
  alike := fun _ h => absurd h List.not_mem_nil
  rows := fun _ _ h => nomatch h
  signed := fun _ h => absurd h List.not_mem_nil
  closing := fun _ _ _ h => nomatch h
  keys := List.nodup_nil
  transactions := List.nodup_nil
  answers := fun _ h => absurd h List.not_mem_nil

end Keeps

/-! ## The result -/

/-- **ONCE**: in an orderly run a completion and a transaction are receipted once, and a
    repeated request returns the receipt of the first. -/
theorem ingest_once (js : Js) (getByWallet : String → Option ℕ) (events : List Event)
    (h : Trace.Along (step js getByWallet) (Orderly js) start events) :
    Once (Trace.run (step js getByWallet) start events) :=
  (h.keeps (Kept getByWallet) Kept.start fun _ _ horderly hkept => hkept.step horderly).once

/-! ## A run, and two that are not orderly -/

def sampleJs : Js where
  toLowerCase text := String.ofList (text.toList.map Char.toLower)
  bigInt text := (NumberText.digitsOf 10 text.toList).map Int.ofNat

def sampleBody (paymentRef : String) (externalId : String) : Body where
  source := .string "daydreams"
  external_id := .string externalId
  externalId := .missing
  payer := .string "0x1111111111111111111111111111111111111111"
  payer_wallet := .missing
  payee := .string "0x2222222222222222222222222222222222222222"
  winner := .missing
  payee_wallet := .missing
  amount := .string "2500"
  payment_ref := .string paymentRef
  payment_tx := .missing
  tx := .missing
  network := .missing
  output_hash := .string "3333333333333333333333333333333333333333333333333333333333333333"
  output_sha256 := .missing

/-- The second completion, its payment given as a transaction and a network. -/
def otherBody : Body := { sampleBody "" "job-2" with
  payment_ref := .missing
  payment_tx := .string "0xcd"
  network := .string "Base" }

/-- The payer has a seat. -/
def sampleSeats (wallet : String) : Option ℕ :=
    if wallet = "0x1111111111111111111111111111111111111111" then some 7 else none

def firstRequest : Event := .request none (sampleBody "base:0xab" "job-1")

/-- Two completions at once. -/
def sampleRace : List Event := [firstRequest, .request none otherBody, .resume 1 true, .resume 0 true, .resume 0 true,
  .resume 1 true, .resume 0 true]

/-- The save of the second one's row fails, and both come again, the second under its reference. -/
def sampleEvents : List Event :=
  sampleRace ++ [.resume 1 false, firstRequest, .request none (sampleBody "base:0xcd" "job-2")]

def firstAdmitted : Admitted := ⟨"daydreams", "job-1", "0x1111111111111111111111111111111111111111",
  "0x2222222222222222222222222222222222222222", 2500, "base:0xab",
  "0x3333333333333333333333333333333333333333333333333333333333333333"⟩

def secondAdmitted : Admitted := { firstAdmitted with
  externalId := "job-2"
  paymentRef := "base:0xcd" }

/-- What an orderly request is to meet, up to the tickets given out. -/
def Admits (w : World) (a : Admitted) : Prop :=
  (∀ b ∈ w.seen, Alike b a) ∧ a.key ≠ a.paymentRef
  ∧ ∀ n < w.tickets, ∀ r ∈ w.running n, r.request.key ≠ a.key ∧ r.request.paymentRef ≠ a.paymentRef

instance decidableAdmits (w : World) (a : Admitted) : Decidable (Admits w a) := by
  unfold Admits Alike
  infer_instance

theorem orderly_request {js : Js} {getByWallet : String → Option ℕ} {w : World} {body : Body}
    (hw : Kept getByWallet w) (hchecked : checked js body = .ok a) (h : Admits w a) :
    Orderly js w (.request none body) := by
  intro b hb
  obtain rfl := Except.ok.inj (hchecked.symm.trans hb)
  exact ⟨h.1, h.2.1, fun n r hrun => h.2.2 n (hw.tickets n r hrun) r hrun⟩

theorem step_request {js : Js} {getByWallet : String → Option ℕ} {w : World} {body : Body}
    (h : checked js body = .ok a) : step js getByWallet w (.request none body) = accept w a := by
  rw [step, arrive, h]

theorem sample_checked : checked sampleJs (sampleBody "base:0xab" "job-1") = .ok firstAdmitted
    ∧ checked sampleJs otherBody = .ok secondAdmitted
    ∧ checked sampleJs (sampleBody "base:0xcd" "job-2") = .ok secondAdmitted
    ∧ checked sampleJs (sampleBody "base:0xAB" "job-2") = .ok { secondAdmitted with paymentRef := "base:0xAB" } :=
  ⟨by decide +kernel, by decide +kernel, by decide +kernel, by decide +kernel⟩

/-- The world after some events of the sample. -/
def sampleRun (events : List Event) : World := Trace.run (step sampleJs sampleSeats) start events

def sampleStep (w : World) (event : Event) : World := step sampleJs sampleSeats w event

theorem sample_admits : Admits start firstAdmitted ∧ Admits (sampleStep start firstRequest) secondAdmitted
    ∧ ((sampleRun sampleRace).running 1).map Running.stage = some (.closing [])
    ∧ Admits (sampleStep (sampleRun sampleRace) (.resume 1 false)) firstAdmitted
    ∧ Admits (sampleStep (sampleStep (sampleRun sampleRace) (.resume 1 false)) firstRequest) secondAdmitted
    ∧ (sampleRun sampleEvents).signed.map (fun s => s.request.externalId) = ["job-2", "job-1"]
    ∧ (sampleRun sampleEvents).answers.map (fun answer => answer.receipted.map fun r => (r.1.externalId, r.2.task_id))
      = [some ("job-1", 0), none, some ("job-1", 0), some ("job-2", 1)] := by
  obtain ⟨hbody, hother, hlast, -⟩ := sample_checked
  simp only [sampleRun, sampleStep, sampleEvents, sampleRace, firstRequest, List.cons_append, List.nil_append,
    Trace.run_cons, Trace.run_nil, step_request hbody, step_request hother, step_request hlast]
  decide +kernel

theorem sample_orderly : Trace.Along (step sampleJs sampleSeats) (Orderly sampleJs) start sampleEvents := by
  obtain ⟨hbody, hspelled, hlast, -⟩ := sample_checked
  obtain ⟨hfirst, hother, hwaits, hagain, hsecond, -⟩ := sample_admits
  have hstart : Kept sampleSeats start := .start
  have h0 : Orderly sampleJs start firstRequest := orderly_request hstart hbody hfirst
  have h1 := orderly_request (hstart.step h0) hspelled hother
  have hrace : Trace.Along (step sampleJs sampleSeats) (Orderly sampleJs) start sampleRace :=
    ⟨h0, h1, trivial, trivial, trivial, trivial, trivial, trivial⟩
  have hkept : Kept sampleSeats (sampleRun sampleRace) :=
    hrace.keeps (Kept sampleSeats) hstart fun _ _ ho hk => hk.step ho
  have h7 : Orderly sampleJs (sampleRun sampleRace) (.resume 1 false) := by
    intro a close rest hrun
    have hstage := congrArg (Option.map Running.stage) hrun
    rw [hwaits] at hstage
    cases hstage
  have h8 := orderly_request (hkept.step h7) hbody hagain
  have h9 := orderly_request ((hkept.step h7).step h8) hlast hsecond
  exact Trace.along_append.mpr ⟨hrace, h7, h8, h9, trivial⟩

theorem ingest_once_sample : Once (Trace.run (step sampleJs sampleSeats) start sampleEvents)
    ∧ (Trace.run (step sampleJs sampleSeats) start sampleEvents).signed.map (fun s => s.request.externalId)
      = ["job-2", "job-1"]
    ∧ (Trace.run (step sampleJs sampleSeats) start sampleEvents).answers.map
        (fun answer => answer.receipted.map fun r => (r.1.externalId, r.2.task_id))
      = [some ("job-1", 0), none, some ("job-1", 0), some ("job-2", 1)] :=
  ⟨ingest_once _ _ _ sample_orderly, sample_admits.2.2.2.2.2⟩

/-- Two copies of a request at a time sign two receipts, and so do two spellings of a
    transaction one after the other. -/
theorem ingest_twice :
    ¬ Once (Trace.run (step sampleJs fun _ => none) start [.request none (sampleBody "base:0xab" "job-1"),
      .request none (sampleBody "base:0xab" "job-1"), .resume 0 true, .resume 1 true])
    ∧ ¬ Once (Trace.run (step sampleJs fun _ => none)
      start [.request none (sampleBody "base:0xab" "job-1"), .resume 0 true,
      .resume 0 true, .request none (sampleBody "base:0xAB" "job-2"), .resume 1 true]) := by
  obtain ⟨hbody, -, -, hspelled⟩ := sample_checked
  simp only [Trace.run_cons, Trace.run_nil, step_request hbody, step_request hspelled]
  exact ⟨fun h => absurd h.completion (by decide +kernel), fun h => absurd h.transaction (by decide +kernel)⟩

end InboundReceipt
