import Chit402.OrderedMapProofs
import Chit402.TraceProofs
import Mathlib.Data.Finset.Basic

/-! # The client of the hold routes

    An entry object gets a request id, its hold is posted, and when the gateway
    accepts it the id waits in the queue of its terms.  A signed payload takes
    the oldest waiting id of its requirements.  Requests complete in any order,
    late or never, and calls come in between. -/

namespace HoldClient

open OrderedMap

/-- The identity of an object, as a weak map sees it. -/
abbrev Ref := ℕ

/-- A request id, by its random suffix. -/
abbrev Id := ℕ

structure Terms where
  amount : ℤ
  asset : String
  network : String
  payTo : String
  deriving DecidableEq

/-- What a settled hold returns. -/
structure Result where
  verify_url : String
  receipt : String
  idempotent : Bool
  deriving DecidableEq

structure Book where
  idsByObject : Ref → Option Id
  queues : OrderedMap String (List Id)
  byPayload : Ref → Option Id
  queuedIds : Finset Id
  boundIds : Finset Id
  lastReceipt : Option Result
  /-- Suffixes drawn so far. -/
  uuids : ℕ

def Book.empty : Book := ⟨fun _ => none, ∅, fun _ => none, ∅, ∅, none, 0⟩

def matchKey (toLowerCase : String → String) (entry : Terms) : String :=
  String.intercalate "|" [toString entry.amount, toLowerCase entry.asset, toLowerCase entry.network,
    toLowerCase entry.payTo]

variable {requestId : Id} {rest : List Id} {payload : Ref} {key : String}

namespace Book

def queueOf (b : Book) (key : String) : List Id := (b.queues.lookup key).getD []

def pushQueue (b : Book) (key : String) (requestId : Id) : Book :=
  if requestId ∈ b.queuedIds ∨ requestId ∈ b.boundIds then b
  else { b with
    queues := set b.queues key (b.queueOf key ++ [requestId])
    queuedIds := insert requestId b.queuedIds }

/-- The id leaves both sets and the first place it has in each queue. -/
def dropQueue (b : Book) (requestId : Id) : Book := { b with
  queuedIds := b.queuedIds.erase requestId
  boundIds := b.boundIds.erase requestId
  queues := keep (· ≠ []) (mapValues (·.erase requestId) b.queues) }

/-- The id of an entry, drawn at its first hold. -/
def requestIdOf (b : Book) (entry : Ref) : Book × Id :=
  match b.idsByObject entry with
  | some requestId => (b, requestId)
  | none =>
    ({ b with idsByObject := Function.update b.idsByObject entry (some b.uuids), uuids := b.uuids + 1 }, b.uuids)

/-- Take the oldest id of a key for the payload. -/
def notePayload (b : Book) (payload : Ref) (key : String) : Book × Option Id :=
  match b.queueOf key with
  | [] => (b, none)
  | requestId :: rest =>
    ({ b with
      queues := if rest = [] then b.queues.erase key else set b.queues key rest
      queuedIds := b.queuedIds.erase requestId
      boundIds := insert requestId b.boundIds
      byPayload := Function.update b.byPayload payload (some requestId) }, some requestId)

/-! ### What a call does to the queues -/

variable (b : Book)

theorem queueOf_pushQueue (key : String) (h : ¬(requestId ∈ b.queuedIds ∨ requestId ∈ b.boundIds)) (k : String) :
    (b.pushQueue key requestId).queueOf k = if k = key then b.queueOf key ++ [requestId] else b.queueOf k := by
  rw [pushQueue, if_neg h, queueOf, lookup_set]
  split <;> rfl

theorem queueOf_dropQueue (requestId : Id) (k : String) :
    (b.dropQueue requestId).queueOf k = (b.queueOf k).erase requestId := by
  rw [dropQueue, queueOf, lookup_keep, lookup_mapValues, queueOf]
  cases b.queues.lookup k with
  | none => rfl
  | some queue =>
    rw [Option.map_some, Option.filter_some, Option.getD_some]
    split
    · rfl
    · rename_i hnil
      exact (not_not.mp fun hne => hnil (decide_eq_true hne)).symm

theorem notePayload_nil (h : b.queueOf key = []) : b.notePayload payload key = (b, none) := by
  rw [notePayload, h]

theorem notePayload_cons (payload : Ref) (h : b.queueOf key = requestId :: rest) (k : String) :
    (b.notePayload payload key).2 = some requestId
    ∧ (b.notePayload payload key).1.queueOf k = (if k = key then rest else b.queueOf k) := by
  rw [notePayload, h]
  refine ⟨rfl, ?_⟩
  dsimp only [queueOf]
  by_cases hrest : rest = []
  · rw [if_pos hrest, lookup_erase_eq]
    split
    · exact hrest.symm
    · rfl
  · rw [if_neg hrest, lookup_set]
    split <;> rfl

theorem notePayload_fields (payload : Ref) (h : b.queueOf key = requestId :: rest) :
    (b.notePayload payload key).1.idsByObject = b.idsByObject ∧ (b.notePayload payload key).1.uuids = b.uuids
    ∧ (b.notePayload payload key).1.queuedIds = b.queuedIds.erase requestId
    ∧ (b.notePayload payload key).1.boundIds = insert requestId b.boundIds
    ∧ (b.notePayload payload key).1.byPayload = Function.update b.byPayload payload (some requestId) := by
  rw [notePayload, h]
  exact ⟨rfl, rfl, rfl, rfl, rfl⟩

end Book

/-! ## Calls and answers -/

/-- A request under way. `sent` is the time of a hold's call. -/
inductive Request where
  | hold (entry : Ref) (requestId : Id) (sent : ℕ)
  | release (requestId : Id)
  | settle (requestId : Id)
  deriving DecidableEq

structure Requirements where
  amount : Option ℤ
  maxAmountRequired : Option ℤ
  asset : String
  network : String
  payTo : String

/-- `requirements.amount ?? requirements.maxAmountRequired` and the rest. -/
def Requirements.terms (r : Requirements) : Option Terms :=
  (r.amount.or r.maxAmountRequired).map fun amount => ⟨amount, r.asset, r.network, r.payTo⟩

/-- A payment response: whether a settle response is there and says success. -/
structure Context where
  paymentPayload : Option Ref
  settleResponse : Option Bool
  paymentRequired : Bool

inductive Event where
  | holdEntry (entry : Ref)
  | releaseEntry (entry : Ref)
  | notePayload (payload : Option Ref) (requirements : Requirements)
  | onPaymentResponse (ctx : Context)
  /-- A request under way completes, with the gateway's result or in failure. -/
  | answer (n : ℕ) (reply : Option Result)

/-- A payload that took an id: when that was accepted, and whether its hold was live. -/
structure Binding where
  payload : Ref
  requestId : Id
  terms : Terms
  acceptedAt : ℕ
  live : Bool

/-- The client with its requests under way and what happened so far. -/
structure World where
  book : Book
  pending : List Request
  now : ℕ
  /-- When the client last released an id, by a call or a failed response. -/
  released : Id → ℕ
  /-- When the last hold that was accepted for an id was sent. -/
  accepted : Id → ℕ
  /-- When an id last came into a queue. -/
  queuedAt : Id → ℕ
  bindings : List Binding

def start : World := ⟨Book.empty, [], 0, fun _ => 0, fun _ => 0, fun _ => 0, []⟩

/-- The hold was accepted, and not released since it was sent. -/
def Live (w : World) (requestId : Id) : Prop := w.released requestId < w.accepted requestId

section Run

variable (toLowerCase : String → String) (entries : Ref → Terms)

def acceptHold (w : World) (entry : Ref) (requestId : Id) (sent : ℕ) : World :=
  let taken := requestId ∈ w.book.queuedIds ∨ requestId ∈ w.book.boundIds
  { w with
    book := w.book.pushQueue (matchKey toLowerCase (entries entry)) requestId
    accepted := Function.update w.accepted requestId (max (w.accepted requestId) sent)
    queuedAt := if taken then w.queuedAt else Function.update w.queuedAt requestId w.now }

def release (w : World) (requestId : Id) : World := { w with
  pending := w.pending ++ [.release requestId]
  released := Function.update w.released requestId w.now }

def note (w : World) (payload : Ref) (terms : Terms) : World :=
  match w.book.notePayload payload (matchKey toLowerCase terms) with
  | (_, none) => w
  | (book, some requestId) => { w with
    book := book
    bindings := w.bindings ++ [⟨payload, requestId, terms, w.queuedAt requestId,
      decide (w.released requestId < w.accepted requestId)⟩] }

def respond (w : World) (ctx : Context) : World :=
  match ctx.paymentPayload.bind w.book.byPayload with
  | none => w
  | some requestId =>
    if ctx.settleResponse = some true then { w with pending := w.pending ++ [.settle requestId] }
    else if ctx.settleResponse = some false ∨ ctx.paymentRequired = true then release w requestId
    else w

/-- A call or an answer, at its time. -/
def act (w : World) : Event → World
  | .holdEntry entry =>
    let (book, requestId) := w.book.requestIdOf entry
    { w with book := book, pending := w.pending ++ [.hold entry requestId w.now] }
  | .releaseEntry entry =>
    match w.book.idsByObject entry with
    | none => w
    | some requestId => release { w with book := w.book.dropQueue requestId } requestId
  | .notePayload payload requirements =>
    match payload, requirements.terms with
    | some payload, some terms => note toLowerCase w payload terms
    | _, _ => w
  | .onPaymentResponse ctx => respond w ctx
  | .answer n reply =>
    match w.pending[n]? with
    | none => w
    | some request =>
      let rest := { w with pending := w.pending.eraseIdx n }
      match request, reply with
      | .hold entry requestId sent, some _ => acceptHold toLowerCase entries rest entry requestId sent
      | .settle _, some result => { rest with book := { rest.book with lastReceipt := some result } }
      | _, _ => rest

/-- The time of the next event. -/
def tick (w : World) : World := { w with now := w.now + 1 }

def step (w : World) (event : Event) : World := act toLowerCase entries (tick w) event

end Run

/-! ## What an event can do -/

variable {event : Event} {pending : List Request} {lastReceipt : Option Result} {e entry : Ref} {k : String}
  {m n sent : ℕ}

section Cases

variable {toLowerCase : String → String} {entries : Ref → Terms} {w : World}

def post (w : World) (entry : Ref) : World := { w with
  book := (w.book.requestIdOf entry).1
  pending := w.pending ++ [.hold entry (w.book.requestIdOf entry).2 w.now] }

/-- Only the requests under way and the last receipt differ. -/
def quiet (w : World) (pending : List Request) (lastReceipt : Option Result) : World := { w with
  pending := pending
  book := { w.book with lastReceipt := lastReceipt } }

/-- No hold is under way that was not before. -/
def NoNewHold (w : World) (pending : List Request) : Prop :=
  ∀ entry requestId sent, .hold entry requestId sent ∈ pending → .hold entry requestId sent ∈ w.pending

theorem noNewHold_append (request : Request) (h : ∀ entry requestId sent, request ≠ .hold entry requestId sent) :
    NoNewHold w (w.pending ++ [request]) := by
  intro entry requestId sent hmem
  obtain hmem | hmem := List.mem_append.mp hmem
  · exact hmem
  · exact absurd (List.mem_singleton.mp hmem).symm (h entry requestId sent)

theorem noNewHold_eraseIdx (n : ℕ) : NoNewHold w (w.pending.eraseIdx n) := fun _ _ _ hmem =>
  List.mem_of_mem_eraseIdx hmem

/-- **MOVES**: an event posts a hold, has one accepted, drops an id, releases one after a
    failed response, notes a payload, or leaves the book's bookkeeping alone. -/
theorem act_keeps {P : World → Prop} (hpost : ∀ entry, event = .holdEntry entry → P (post w entry))
    (haccept : ∀ n entry requestId sent, w.pending[n]? = some (.hold entry requestId sent) →
      P (acceptHold toLowerCase entries { w with pending := w.pending.eraseIdx n } entry requestId sent))
    (hdrop : ∀ entry requestId, event = .releaseEntry entry → w.book.idsByObject entry = some requestId →
      P (release { w with book := w.book.dropQueue requestId } requestId))
    (hfail : ∀ payload requestId, w.book.byPayload payload = some requestId → P (release w requestId))
    (hnote : ∀ payload requirements terms, event = .notePayload (some payload) requirements →
      requirements.terms = some terms → P (note toLowerCase w payload terms))
    (hquiet : ∀ pending lastReceipt, NoNewHold w pending → P (quiet w pending lastReceipt)) :
    P (act toLowerCase entries w event) := by
  have hsame : P w := hquiet w.pending w.book.lastReceipt fun _ _ _ h => h
  cases event with
  | holdEntry entry => exact hpost entry rfl
  | releaseEntry entry =>
    rw [act]
    cases hid : w.book.idsByObject entry with
    | none => exact hsame
    | some requestId => exact hdrop entry requestId rfl hid
  | notePayload payload requirements =>
    cases payload with
    | none => exact hsame
    | some payload =>
      cases hterms : requirements.terms with
      | none =>
        rw [act.eq_def]
        dsimp only
        rw [hterms]
        exact hsame
      | some terms =>
        rw [act.eq_def]
        dsimp only
        rw [hterms]
        exact hnote payload requirements terms rfl hterms
  | onPaymentResponse ctx =>
    rw [act, respond]
    cases hbound : ctx.paymentPayload.bind w.book.byPayload with
    | none => exact hsame
    | some requestId =>
      obtain ⟨payload, -, hpayload⟩ := Option.bind_eq_some_iff.mp hbound
      dsimp only
      split
      · exact hquiet _ w.book.lastReceipt (noNewHold_append (.settle requestId) fun _ _ _ => nofun)
      · split
        · exact hfail payload requestId hpayload
        · exact hsame
  | answer n reply =>
    rw [act.eq_def]
    dsimp only
    cases hrequest : w.pending[n]? with
    | none => exact hsame
    | some request =>
      have hrest : P { w with pending := w.pending.eraseIdx n } := hquiet _ w.book.lastReceipt (noNewHold_eraseIdx n)
      cases request with
      | hold entry requestId sent =>
        cases reply with
        | none => exact hrest
        | some result => exact haccept n entry requestId sent hrequest
      | release requestId => exact hrest
      | settle requestId =>
        cases reply with
        | none => exact hrest
        | some result => exact hquiet _ (some result) (noNewHold_eraseIdx n)

/-! ## What always holds -/

/-- Ids, sets and queues fit together. -/
structure Wired (entries : Ref → Terms) (toLowerCase : String → String) (w : World) : Prop where
  ids_inj : ∀ e e' id, w.book.idsByObject e = some id → w.book.idsByObject e' = some id → e = e'
  ids_lt : ∀ e id, w.book.idsByObject e = some id → id < w.book.uuids
  queued : ∀ id, id ∈ w.book.queuedIds ↔ ∃ k, id ∈ w.book.queueOf k
  key : ∀ k, ∀ id ∈ w.book.queueOf k, ∃ e, w.book.idsByObject e = some id ∧ k = matchKey toLowerCase (entries e)
  nodup : ∀ k, (w.book.queueOf k).Nodup
  posted : ∀ e id sent, .hold e id sent ∈ w.pending → w.book.idsByObject e = some id
  matched : ∀ b ∈ w.bindings, ∃ e, w.book.idsByObject e = some b.requestId
    ∧ matchKey toLowerCase (entries e) = matchKey toLowerCase b.terms

/-- Bindings and then the waiting ids of a key, in the order they were accepted. -/
def timeline (toLowerCase : String → String) (w : World) (k : String) : List ℕ :=
  (w.bindings.filter fun b => matchKey toLowerCase b.terms = k).map Binding.acceptedAt
    ++ (w.book.queueOf k).map w.queuedAt

/-- The timelines are in order and end before `bound`. -/
structure Ordered (toLowerCase : String → String) (bound : ℕ) (w : World) : Prop where
  sorted : ∀ k, (timeline toLowerCase w k).Pairwise (· < ·)
  bindings_lt : ∀ b ∈ w.bindings, b.acceptedAt < bound
  queuedAt_lt : ∀ id, w.queuedAt id < bound

theorem Wired.same_key (hw : Wired entries toLowerCase w) {k' : String} {id : Id} (h : id ∈ w.book.queueOf k)
    (h' : id ∈ w.book.queueOf k') : k = k' := by
  obtain ⟨e, he, rfl⟩ := hw.key k id h
  obtain ⟨e', he', rfl⟩ := hw.key k' id h'
  rw [hw.ids_inj e e' id he he']

variable {b : Book}

theorem requestIdOf_some {id : Id} (h : b.idsByObject e = some id) : b.requestIdOf e = (b, id) := by
  rw [Book.requestIdOf, h]

theorem requestIdOf_none (h : b.idsByObject e = none) : b.requestIdOf e
      = ({ b with idsByObject := Function.update b.idsByObject e (some b.uuids), uuids := b.uuids + 1 }, b.uuids) := by
  rw [Book.requestIdOf, h]

theorem idsByObject_update {e' : Ref} {id : Id} (h : b.idsByObject e = none) (h' : b.idsByObject e' = some id) :
    Function.update b.idsByObject e (some b.uuids) e' = some id := by
  have hne : e' ≠ e := by
    rintro rfl
    rw [h] at h'
    cases h'
  rw [Function.update_of_ne hne]
  exact h'

theorem Wired.post (hw : Wired entries toLowerCase w) (entry : Ref) : Wired entries toLowerCase (post w entry) := by
  cases hid : w.book.idsByObject entry with
  | some requestId =>
    have hpost : HoldClient.post w entry = { w with pending := w.pending ++ [.hold entry requestId w.now] } := by
      rw [HoldClient.post, requestIdOf_some hid]
    rw [hpost]
    refine ⟨hw.ids_inj, hw.ids_lt, hw.queued, hw.key, hw.nodup, fun e id sent hmem => ?_, hw.matched⟩
    obtain hmem | hmem := List.mem_append.mp hmem
    · exact hw.posted e id sent hmem
    · obtain ⟨rfl, rfl, rfl⟩ := Request.hold.inj (List.mem_singleton.mp hmem)
      exact hid
  | none =>
    rw [HoldClient.post, requestIdOf_none hid]
    have hnew : ∀ {e id}, Function.update w.book.idsByObject entry (some w.book.uuids) e = some id →
        (e = entry ∧ id = w.book.uuids) ∨ w.book.idsByObject e = some id := by
      intro e id h
      by_cases he : e = entry
      · rw [he, Function.update_self] at h
        exact .inl ⟨he, (Option.some.inj h).symm⟩
      · rw [Function.update_of_ne he] at h
        exact .inr h
    refine ⟨fun e e' id h h' => ?_, fun e id h => ?_, hw.queued, fun k id h => ?_, hw.nodup, fun e id sent hmem => ?_,
      fun b hb => ?_⟩
    · obtain ⟨he, hfresh⟩ | hold := hnew h
      · obtain ⟨he', -⟩ | hold' := hnew h'
        · rw [he, he']
        · exact absurd hfresh (Nat.ne_of_lt (hw.ids_lt e' id hold'))
      · obtain ⟨-, hfresh⟩ | hold' := hnew h'
        · exact absurd hfresh (Nat.ne_of_lt (hw.ids_lt e id hold))
        · exact hw.ids_inj e e' id hold hold'
    · obtain ⟨-, hfresh⟩ | hold := hnew h
      · exact lt_of_eq_of_lt hfresh (Nat.lt_succ_self _)
      · exact Nat.lt_succ_of_lt (hw.ids_lt e id hold)
    · obtain ⟨e, he, hk⟩ := hw.key k id h
      exact ⟨e, idsByObject_update hid he, hk⟩
    · obtain hmem | hmem := List.mem_append.mp hmem
      · exact idsByObject_update hid (hw.posted e id sent hmem)
      · obtain ⟨rfl, rfl, rfl⟩ := Request.hold.inj (List.mem_singleton.mp hmem)
        exact Function.update_self ..
    · obtain ⟨e, he, hk⟩ := hw.matched b hb
      exact ⟨e, idsByObject_update hid he, hk⟩

theorem Wired.quiet (hw : Wired entries toLowerCase w) (h : NoNewHold w pending) :
    Wired entries toLowerCase (quiet w pending lastReceipt) :=
  ⟨hw.ids_inj, hw.ids_lt, hw.queued, hw.key, hw.nodup, fun e id sent hmem => hw.posted e id sent (h e id sent hmem),
    hw.matched⟩

theorem Wired.release (hw : Wired entries toLowerCase w) (requestId : Id) :
    Wired entries toLowerCase (release w requestId) :=
  ⟨hw.ids_inj, hw.ids_lt, hw.queued, hw.key, hw.nodup, fun e id sent hmem =>
    hw.posted e id sent (noNewHold_append (.release requestId) (fun _ _ _ => nofun) e id sent hmem), hw.matched⟩

theorem acceptHold_taken {w : World} (h : requestId ∈ w.book.queuedIds ∨ requestId ∈ w.book.boundIds) :
    acceptHold toLowerCase entries w entry requestId sent
      = { w with accepted := Function.update w.accepted requestId (max (w.accepted requestId) sent) } := by
  rw [acceptHold, Book.pushQueue, if_pos h, if_pos h]

theorem Wired.accept (hw : Wired entries toLowerCase w) (sent : ℕ) (hid : w.book.idsByObject entry = some requestId) :
    Wired entries toLowerCase (acceptHold toLowerCase entries w entry requestId sent) := by
  by_cases htaken : requestId ∈ w.book.queuedIds ∨ requestId ∈ w.book.boundIds
  · rw [acceptHold_taken htaken]
    exact ⟨hw.ids_inj, hw.ids_lt, hw.queued, hw.key, hw.nodup, hw.posted, hw.matched⟩
  · have hqueue := w.book.queueOf_pushQueue (matchKey toLowerCase (entries entry)) htaken
    have hids : (w.book.pushQueue (matchKey toLowerCase (entries entry)) requestId).idsByObject
      = w.book.idsByObject := by
      rw [Book.pushQueue, if_neg htaken]
    have hqueued : (w.book.pushQueue (matchKey toLowerCase (entries entry)) requestId).queuedIds
        = insert requestId w.book.queuedIds := by
      rw [Book.pushQueue, if_neg htaken]
    have huuids : (w.book.pushQueue (matchKey toLowerCase (entries entry)) requestId).uuids = w.book.uuids := by
      rw [Book.pushQueue, if_neg htaken]
    have hmem : ∀ {k id}, id ∈ (w.book.pushQueue (matchKey toLowerCase (entries entry)) requestId).queueOf k
        ↔ id ∈ w.book.queueOf k ∨ k = matchKey toLowerCase (entries entry) ∧ id = requestId := by
      intro k id
      rw [hqueue]
      split
      · rename_i hk
        rw [List.mem_append, List.mem_singleton, hk, and_iff_right rfl]
      · rename_i hk
        exact (or_iff_left fun h => hk h.1).symm
    have hfresh : ∀ k, requestId ∉ w.book.queueOf k := fun k hin =>
      htaken (.inl ((hw.queued requestId).mpr ⟨k, hin⟩))
    refine ⟨fun e e' id h h' => ?_, fun e id h => ?_, fun id => ?_, fun k id h => ?_, fun k => ?_,
      fun e id sent' h => ?_,
      fun b hb => ?_⟩
    · rw [show (acceptHold toLowerCase entries w entry requestId sent).book.idsByObject
        = w.book.idsByObject from hids] at h h'
      exact hw.ids_inj e e' id h h'
    · rw [show (acceptHold toLowerCase entries w entry requestId sent).book.idsByObject
        = w.book.idsByObject from hids] at h
      exact lt_of_lt_of_eq (hw.ids_lt e id h) huuids.symm
    · show id ∈ (w.book.pushQueue _ requestId).queuedIds ↔ ∃ k, id ∈ (w.book.pushQueue _ requestId).queueOf k
      rw [hqueued, Finset.mem_insert, hw.queued]
      constructor
      · rintro (rfl | ⟨k, hk⟩)
        · exact ⟨_, hmem.mpr (.inr ⟨rfl, rfl⟩)⟩
        · exact ⟨k, hmem.mpr (.inl hk)⟩
      · rintro ⟨k, hk⟩
        exact (hmem.mp hk).symm.imp And.right fun h => ⟨k, h⟩
    · show ∃ e, (w.book.pushQueue _ requestId).idsByObject e = some id ∧ _
      rw [hids]
      obtain h | ⟨hk, rfl⟩ := hmem.mp h
      · exact hw.key k id h
      · exact ⟨entry, hid, hk⟩
    · show ((w.book.pushQueue _ requestId).queueOf k).Nodup
      rw [hqueue]
      split
      · refine List.nodup_append.mpr ⟨hw.nodup _, List.nodup_singleton _, fun a ha b hb hab => ?_⟩
        rw [hab, List.mem_singleton.mp hb] at ha
        exact hfresh _ ha
      · exact hw.nodup k
    · show (w.book.pushQueue _ requestId).idsByObject e = some id
      rw [hids]
      exact hw.posted e id sent' h
    · show ∃ e, (w.book.pushQueue _ requestId).idsByObject e = some b.requestId ∧ _
      rw [hids]
      exact hw.matched b hb

theorem Wired.drop (hw : Wired entries toLowerCase w) (requestId : Id) :
    Wired entries toLowerCase { w with book := w.book.dropQueue requestId } := by
  have hmem : ∀ {k id}, id ∈ (w.book.dropQueue requestId).queueOf k ↔ id ≠ requestId ∧ id ∈ w.book.queueOf k := by
    intro k id
    rw [Book.queueOf_dropQueue, (hw.nodup k).mem_erase_iff]
  refine ⟨hw.ids_inj, hw.ids_lt, fun id => ?_, fun k id h => hw.key k id (hmem.mp h).2, fun k => ?_, hw.posted,
    hw.matched⟩
  · show id ∈ w.book.queuedIds.erase requestId ↔ ∃ k, id ∈ (w.book.dropQueue requestId).queueOf k
    rw [Finset.mem_erase, hw.queued]
    constructor
    · rintro ⟨hne, k, hk⟩
      exact ⟨k, hmem.mpr ⟨hne, hk⟩⟩
    · rintro ⟨k, hk⟩
      exact ⟨(hmem.mp hk).1, k, (hmem.mp hk).2⟩
  · show ((w.book.dropQueue requestId).queueOf k).Nodup
    rw [Book.queueOf_dropQueue]
    exact (hw.nodup k).erase requestId

/-- What a noted payload takes: nothing, or the oldest id of its key. -/
theorem note_cases (toLowerCase : String → String) (w : World) (payload : Ref) (terms : Terms) :
    (note toLowerCase w payload terms = w)
    ∨ ∃ requestId rest, w.book.queueOf (matchKey toLowerCase terms) = requestId :: rest
      ∧ note toLowerCase w payload terms = { w with
          book := (w.book.notePayload payload (matchKey toLowerCase terms)).1
          bindings := w.bindings ++ [⟨payload, requestId, terms, w.queuedAt requestId,
            decide (w.released requestId < w.accepted requestId)⟩] } := by
  cases hqueue : w.book.queueOf (matchKey toLowerCase terms) with
  | nil =>
    left
    rw [note, w.book.notePayload_nil hqueue]
  | cons requestId rest =>
    right
    have htaken := (w.book.notePayload_cons payload hqueue (matchKey toLowerCase terms)).1
    refine ⟨requestId, rest, rfl, ?_⟩
    rw [note, show w.book.notePayload payload (matchKey toLowerCase terms)
      = ((w.book.notePayload payload (matchKey toLowerCase terms)).1, some requestId) from Prod.ext rfl htaken]

/-- The head of a queue is taken out, and only that. -/
theorem Wired.mem_note (hw : Wired entries toLowerCase w) (hqueue : w.book.queueOf key = requestId :: rest) {id : Id} :
    id ∈ (w.book.notePayload payload key).1.queueOf k ↔ id ≠ requestId ∧ id ∈ w.book.queueOf k := by
  have hhead : requestId ∈ w.book.queueOf key := by
    rw [hqueue]
    exact List.mem_cons_self
  have hnodup := hw.nodup key
  rw [hqueue, List.nodup_cons] at hnodup
  rw [(w.book.notePayload_cons payload hqueue k).2]
  split
  · rename_i hk
    rw [hk, hqueue, List.mem_cons]
    constructor
    · intro h
      exact ⟨fun heq => hnodup.1 (heq ▸ h), .inr h⟩
    · rintro ⟨hne, h⟩
      exact h.resolve_left hne
  · rename_i hk
    refine ⟨fun h => ⟨fun heq => hk ?_, h⟩, And.right⟩
    rw [heq] at h
    exact hw.same_key h hhead

theorem Wired.note (hw : Wired entries toLowerCase w) (payload : Ref) (terms : Terms) :
    Wired entries toLowerCase (note toLowerCase w payload terms) := by
  obtain hsame | ⟨requestId, rest, hqueue, hnote⟩ := note_cases toLowerCase w payload terms
  · rw [hsame]
    exact hw
  · have hfields := w.book.notePayload_fields payload hqueue
    rw [hnote]
    refine ⟨?_, ?_, fun id => ?_, fun k id h => ?_, fun k => ?_, fun e id sent h => ?_, fun b hb => ?_⟩
    · show ∀ e e' id, (w.book.notePayload payload _).1.idsByObject e = some id → _
      rw [hfields.1]
      exact hw.ids_inj
    · show ∀ e id, (w.book.notePayload payload _).1.idsByObject e = some id →
        id < (w.book.notePayload payload _).1.uuids
      rw [hfields.1, hfields.2.1]
      exact hw.ids_lt
    · show id ∈ (w.book.notePayload payload _).1.queuedIds ↔ _
      rw [hfields.2.2.1, Finset.mem_erase, hw.queued]
      constructor
      · rintro ⟨hne, k, hk⟩
        exact ⟨k, (hw.mem_note hqueue).mpr ⟨hne, hk⟩⟩
      · rintro ⟨k, hk⟩
        obtain ⟨hne, hk⟩ := (hw.mem_note hqueue).mp hk
        exact ⟨hne, k, hk⟩
    · show ∃ e, (w.book.notePayload payload _).1.idsByObject e = some id ∧ _
      rw [hfields.1]
      exact hw.key k id ((hw.mem_note hqueue).mp h).2
    · show ((w.book.notePayload payload _).1.queueOf k).Nodup
      rw [(w.book.notePayload_cons payload hqueue k).2]
      split
      · have hnodup := hw.nodup (matchKey toLowerCase terms)
        rw [hqueue] at hnodup
        exact (List.nodup_cons.mp hnodup).2
      · exact hw.nodup k
    · show (w.book.notePayload payload _).1.idsByObject e = some id
      rw [hfields.1]
      exact hw.posted e id sent h
    · show ∃ e, (w.book.notePayload payload _).1.idsByObject e = some b.requestId ∧ _
      rw [hfields.1]
      obtain hb | hb := List.mem_append.mp hb
      · exact hw.matched b hb
      · rw [List.mem_singleton.mp hb]
        obtain ⟨e, he, hk⟩ := hw.key (matchKey toLowerCase terms) requestId (by rw [hqueue]; exact List.mem_cons_self)
        exact ⟨e, he, hk.symm⟩

/-! ### Order of acceptance -/

theorem Ordered.mono (ho : Ordered toLowerCase m w) (h : m ≤ n) : Ordered toLowerCase n w :=
  ⟨ho.sorted, fun b hb => Nat.lt_of_lt_of_le (ho.bindings_lt b hb) h,
    fun id => Nat.lt_of_lt_of_le (ho.queuedAt_lt id) h⟩

theorem Ordered.congr {w' : World} (ho : Ordered toLowerCase n w) (hbindings : w'.bindings = w.bindings)
    (hqueue : ∀ k, w'.book.queueOf k = w.book.queueOf k) (hat : w'.queuedAt = w.queuedAt) :
    Ordered toLowerCase n w' := by
  refine ⟨fun k => ?_, ?_, ?_⟩
  · rw [timeline, hbindings, hqueue, hat]
    exact ho.sorted k
  · rw [hbindings]
    exact ho.bindings_lt
  · rw [hat]
    exact ho.queuedAt_lt

theorem queueOf_post (w : World) (entry : Ref) (k : String) : (post w entry).book.queueOf k = w.book.queueOf k := by
  show (w.book.requestIdOf entry).1.queueOf k = w.book.queueOf k
  rw [Book.requestIdOf]
  split <;> rfl

theorem Ordered.accept (ho : Ordered toLowerCase w.now w) (hw : Wired entries toLowerCase w)
    (entry : Ref) (requestId : Id)
    (sent : ℕ) : Ordered toLowerCase (w.now + 1) (acceptHold toLowerCase entries w entry requestId sent) := by
  by_cases htaken : requestId ∈ w.book.queuedIds ∨ requestId ∈ w.book.boundIds
  · rw [acceptHold_taken htaken]
    exact (ho.mono (Nat.le_succ _)).congr rfl (fun _ => rfl) rfl
  · have hat : (acceptHold toLowerCase entries w entry requestId sent).queuedAt
        = Function.update w.queuedAt requestId w.now := by
      rw [acceptHold]
      exact if_neg htaken
    have hmap : ∀ k, (w.book.queueOf k).map (Function.update w.queuedAt requestId w.now)
        = (w.book.queueOf k).map w.queuedAt := by
      intro k
      refine List.map_congr_left fun id hid => Function.update_of_ne ?_ _ _
      rintro rfl
      exact htaken (.inl ((hw.queued id).mpr ⟨k, hid⟩))
    have hearlier : ∀ k, ∀ t ∈ timeline toLowerCase w k, t < w.now := by
      intro k t ht
      obtain ht | ht := List.mem_append.mp ht
      · obtain ⟨b, hb, rfl⟩ := List.mem_map.mp ht
        exact ho.bindings_lt b (List.mem_filter.mp hb).1
      · obtain ⟨id, -, rfl⟩ := List.mem_map.mp ht
        exact ho.queuedAt_lt id
    refine ⟨fun k => ?_, fun b hb => Nat.lt_succ_of_lt (ho.bindings_lt b hb), fun id => ?_⟩
    · have hline : timeline toLowerCase (acceptHold toLowerCase entries w entry requestId sent) k
          = timeline toLowerCase w k ++ (if k = matchKey toLowerCase (entries entry) then [w.now] else []) := by
        rw [timeline, hat]
        show _ ++ ((w.book.pushQueue _ requestId).queueOf k).map _ = _
        rw [w.book.queueOf_pushQueue _ htaken]
        split
        · rename_i hk
          rw [hk, List.map_append, hmap, List.map_singleton, Function.update_self, ← List.append_assoc]
          rfl
        · rw [hmap, List.append_nil]
          rfl
      rw [hline]
      split
      · exact List.pairwise_append.mpr ⟨ho.sorted k, List.pairwise_singleton _ _, fun t ht u hu => by
          rw [List.mem_singleton.mp hu]
          exact hearlier k t ht⟩
      · rw [List.append_nil]
        exact ho.sorted k
    · rw [hat]
      by_cases hid : id = requestId
      · rw [hid, Function.update_self]
        exact Nat.lt_succ_self _
      · rw [Function.update_of_ne hid]
        exact Nat.lt_succ_of_lt (ho.queuedAt_lt id)

theorem Ordered.drop (ho : Ordered toLowerCase n w) (requestId : Id) :
    Ordered toLowerCase n { w with book := w.book.dropQueue requestId } := by
  refine ⟨fun k => ?_, ho.bindings_lt, ho.queuedAt_lt⟩
  refine (ho.sorted k).sublist ?_
  rw [timeline, Book.queueOf_dropQueue]
  exact List.Sublist.append_left (List.erase_sublist.map _) _

theorem Ordered.note (ho : Ordered toLowerCase n w) (payload : Ref) (terms : Terms) :
    Ordered toLowerCase n (note toLowerCase w payload terms) := by
  obtain hsame | ⟨requestId, rest, hqueue, hnote⟩ := note_cases toLowerCase w payload terms
  · rw [hsame]
    exact ho
  · have hline : ∀ k, timeline toLowerCase (HoldClient.note toLowerCase w payload terms) k
      = timeline toLowerCase w k := by
      intro k
      rw [hnote, timeline, timeline]
      dsimp only
      rw [(w.book.notePayload_cons payload hqueue k).2, List.filter_append, List.map_append, List.append_assoc]
      congr 1
      by_cases hk : k = matchKey toLowerCase terms
      · rw [if_pos hk, hk, hqueue, List.filter_cons_of_pos (by rw [decide_eq_true_eq])]
        rfl
      · rw [if_neg hk, List.filter_cons_of_neg (by rw [decide_eq_true_eq]; exact Ne.symm hk)]
        rfl
    refine ⟨fun k => ?_, fun b hb => ?_, ?_⟩
    · rw [hline]
      exact ho.sorted k
    · rw [hnote] at hb
      obtain hb | hb := List.mem_append.mp hb
      · exact ho.bindings_lt b hb
      · rw [List.mem_singleton.mp hb]
        exact ho.queuedAt_lt requestId
    · rw [hnote]
      exact ho.queuedAt_lt

/-! ## Orderly runs -/

/-- **What is asked of a call**: an entry whose binding was dropped is not held again, no
    entry is released with a hold of it under way, and a payload is noted once, with
    requirements spelled like the entries of their key. -/
def Orderly (toLowerCase : String → String) (entries : Ref → Terms) (w : World) : Event → Prop
  | .holdEntry entry => ∀ id, w.book.idsByObject entry = some id → (∃ b ∈ w.bindings, b.requestId = id) →
      id ∈ w.book.boundIds
  | .releaseEntry entry => ∀ id, w.book.idsByObject entry = some id → ∀ e sent, Request.hold e id sent ∉ w.pending
  | .notePayload (some payload) requirements => w.book.byPayload payload = none
      ∧ ∀ terms, requirements.terms = some terms → ∀ e id, w.book.idsByObject e = some id →
        matchKey toLowerCase (entries e) = matchKey toLowerCase terms → entries e = terms
  | _ => True

/-- What an orderly run keeps of its holds and bindings. -/
structure Held (entries : Ref → Terms) (bound : ℕ) (w : World) : Prop where
  released_lt : ∀ id, w.released id < bound
  sent : ∀ e id sent, .hold e id sent ∈ w.pending → w.released id < sent ∨ id ∈ w.book.boundIds
  waiting : ∀ k, ∀ id ∈ w.book.queueOf k, Live w id
  pending_bound : ∀ e id sent, .hold e id sent ∈ w.pending → (∃ b ∈ w.bindings, b.requestId = id) → id ∈ w.book.boundIds
  unbound : ∀ k, ∀ id ∈ w.book.queueOf k, ∀ b ∈ w.bindings, b.requestId ≠ id
  payloads : (w.bindings.map Binding.payload).Nodup
  ids : (w.bindings.map Binding.requestId).Nodup
  bound : ∀ b ∈ w.bindings, w.book.byPayload b.payload = some b.requestId
  binding : ∀ p id, w.book.byPayload p = some id → ∃ b ∈ w.bindings, b.requestId = id
  terms : ∀ b ∈ w.bindings, ∃ e, w.book.idsByObject e = some b.requestId ∧ entries e = b.terms
  live : ∀ b ∈ w.bindings, b.live = true

theorem Held.quiet (hh : Held entries n w) (h : NoNewHold w pending) : Held entries n (quiet w pending lastReceipt) :=
  ⟨hh.released_lt, fun e id sent hmem => hh.sent e id sent (h e id sent hmem), hh.waiting,
    fun e id sent hmem => hh.pending_bound e id sent (h e id sent hmem), hh.unbound, hh.payloads, hh.ids, hh.bound,
    hh.binding, hh.terms, hh.live⟩

theorem Held.mono (hh : Held entries m w) (h : m ≤ n) : Held entries n w :=
  { hh with released_lt := fun id => Nat.lt_of_lt_of_le (hh.released_lt id) h }

/-- A hold that is posted was released before, and its entry was not bound and dropped. -/
theorem Held.post (hh : Held entries w.now w) (hw : Wired entries toLowerCase w) (entry : Ref)
    (horderly : ∀ id, w.book.idsByObject entry = some id → (∃ b ∈ w.bindings, b.requestId = id) →
      id ∈ w.book.boundIds) :
    Held entries w.now (post w entry) := by
  have hfields : (w.book.requestIdOf entry).1.boundIds = w.book.boundIds
      ∧ (w.book.requestIdOf entry).1.byPayload = w.book.byPayload := by
    rw [Book.requestIdOf]
    split <;> exact ⟨rfl, rfl⟩
  have hnew : (∃ b ∈ w.bindings, b.requestId = (w.book.requestIdOf entry).2) →
      (w.book.requestIdOf entry).2 ∈ w.book.boundIds := by
    cases hid : w.book.idsByObject entry with
    | some requestId =>
      rw [requestIdOf_some hid]
      exact horderly requestId hid
    | none =>
      rw [requestIdOf_none hid]
      rintro ⟨b, hb, hfresh⟩
      obtain ⟨e, he, -⟩ := hh.terms b hb
      exact absurd hfresh (Nat.ne_of_lt (hw.ids_lt e _ he))
  refine ⟨hh.released_lt, fun e id sent hmem => ?_, fun k id h => ?_, fun e id sent hmem hbound => ?_, fun k id h => ?_,
    hh.payloads, hh.ids, fun b hb => ?_, fun p id h => ?_, fun b hb => ?_, hh.live⟩
  · show w.released id < sent ∨ id ∈ (w.book.requestIdOf entry).1.boundIds
    rw [hfields.1]
    obtain hmem | hmem := List.mem_append.mp hmem
    · exact hh.sent e id sent hmem
    · obtain ⟨-, -, rfl⟩ := Request.hold.inj (List.mem_singleton.mp hmem)
      exact .inl (hh.released_lt id)
  · rw [queueOf_post] at h
    exact hh.waiting k id h
  · show id ∈ (w.book.requestIdOf entry).1.boundIds
    rw [hfields.1]
    obtain hmem | hmem := List.mem_append.mp hmem
    · exact hh.pending_bound e id sent hmem hbound
    · obtain ⟨-, rfl, -⟩ := Request.hold.inj (List.mem_singleton.mp hmem)
      exact hnew hbound
  · rw [queueOf_post] at h
    exact hh.unbound k id h
  · show (w.book.requestIdOf entry).1.byPayload b.payload = _
    rw [hfields.2]
    exact hh.bound b hb
  · refine hh.binding p id ?_
    rw [← hfields.2]
    exact h
  · obtain ⟨e, he, hterms⟩ := hh.terms b hb
    refine ⟨e, ?_, hterms⟩
    show (w.book.requestIdOf entry).1.idsByObject e = some b.requestId
    cases hid : w.book.idsByObject entry with
    | some requestId =>
      rw [requestIdOf_some hid]
      exact he
    | none =>
      rw [requestIdOf_none hid]
      exact idsByObject_update hid he

theorem Held.accept (hh : Held entries n w) (hsent : w.released requestId < sent ∨ requestId ∈ w.book.boundIds)
    (hbound : (∃ b ∈ w.bindings, b.requestId = requestId) → requestId ∈ w.book.boundIds) :
    Held entries n (acceptHold toLowerCase entries w entry requestId sent) := by
  have hlive : ∀ id, Live w id →
      w.released id < Function.update w.accepted requestId (max (w.accepted requestId) sent) id := by
    intro id h
    by_cases hid : id = requestId
    · rw [hid, Function.update_self]
      rw [hid] at h
      exact Nat.lt_of_lt_of_le h (Nat.le_max_left _ _)
    · rw [Function.update_of_ne hid]
      exact h
  by_cases htaken : requestId ∈ w.book.queuedIds ∨ requestId ∈ w.book.boundIds
  · rw [acceptHold_taken htaken]
    exact { hh with waiting := fun k id h => hlive id (hh.waiting k id h) }
  · have hbook : w.book.pushQueue (matchKey toLowerCase (entries entry)) requestId
        = { w.book with
            queues := set w.book.queues (matchKey toLowerCase (entries entry))
              (w.book.queueOf (matchKey toLowerCase (entries entry)) ++ [requestId])
            queuedIds := insert requestId w.book.queuedIds } := by
      rw [Book.pushQueue, if_neg htaken]
    have hmem : ∀ {k id}, id ∈ (w.book.pushQueue (matchKey toLowerCase (entries entry)) requestId).queueOf k →
        id ∈ w.book.queueOf k ∨ id = requestId := by
      intro k id h
      rw [w.book.queueOf_pushQueue _ htaken] at h
      split at h
      · rename_i hk
        rw [hk]
        exact (List.mem_append.mp h).imp_right List.mem_singleton.mp
      · exact .inl h
    have hfields : ∀ {β : Type} (f : Book → β), (∀ b q i, f { b with queues := q, queuedIds := i } = f b) →
        f (acceptHold toLowerCase entries w entry requestId sent).book = f w.book := by
      intro β f hf
      show f (w.book.pushQueue (matchKey toLowerCase (entries entry)) requestId) = f w.book
      rw [hbook, hf]
    have hboundIds := hfields Book.boundIds fun _ _ _ => rfl
    have hbyPayload := hfields Book.byPayload fun _ _ _ => rfl
    have hids := hfields Book.idsByObject fun _ _ _ => rfl
    refine ⟨hh.released_lt, ?_, fun k id h => ?_, ?_, fun k id h b hb => ?_, hh.payloads, hh.ids, ?_, ?_, ?_, hh.live⟩
    · rw [hboundIds]
      exact hh.sent
    · obtain h | rfl := hmem h
      · exact hlive id (hh.waiting k id h)
      · show w.released id < Function.update w.accepted id (max (w.accepted id) sent) id
        rw [Function.update_self]
        exact Nat.lt_of_lt_of_le (hsent.resolve_right fun h => htaken (.inr h)) (Nat.le_max_right _ _)
    · rw [hboundIds]
      exact hh.pending_bound
    · obtain h | rfl := hmem h
      · exact hh.unbound k id h b hb
      · exact fun heq => htaken (.inr (hbound ⟨b, hb, heq⟩))
    · rw [hbyPayload]
      exact hh.bound
    · rw [hbyPayload]
      exact hh.binding
    · rw [hids]
      exact hh.terms

/-- A released id that does not wait leaves the waiting holds live. -/
theorem Held.release (hh : Held entries w.now w) (hout : ∀ k, requestId ∉ w.book.queueOf k)
    (hsent : ∀ e sent, .hold e requestId sent ∈ w.pending → requestId ∈ w.book.boundIds) :
    Held entries (w.now + 1) (release w requestId) := by
  have hnew : NoNewHold w (w.pending ++ [.release requestId]) :=
    noNewHold_append (.release requestId) fun _ _ _ => nofun
  have hother : ∀ {id}, id ≠ requestId → Function.update w.released requestId w.now id = w.released id := fun h =>
    Function.update_of_ne h _ _
  refine ⟨fun id => ?_, fun e id sent hmem => ?_, fun k id h => ?_,
    fun e id sent hmem => hh.pending_bound e id sent (hnew e id sent hmem), hh.unbound, hh.payloads, hh.ids, hh.bound,
    hh.binding, hh.terms, hh.live⟩
  · show Function.update w.released requestId w.now id < w.now + 1
    by_cases hid : id = requestId
    · rw [hid, Function.update_self]
      exact Nat.lt_succ_self _
    · rw [hother hid]
      exact Nat.lt_succ_of_lt (hh.released_lt id)
  · show Function.update w.released requestId w.now id < sent ∨ id ∈ w.book.boundIds
    by_cases hid : id = requestId
    · rw [hid] at hmem ⊢
      exact .inr (hsent e sent (hnew e requestId sent hmem))
    · rw [hother hid]
      exact hh.sent e id sent (hnew e id sent hmem)
  · show Function.update w.released requestId w.now id < w.accepted id
    have hid : id ≠ requestId := by
      rintro rfl
      exact hout k h
    rw [hother hid]
    exact hh.waiting k id h

theorem Held.drop (hh : Held entries n w) (hnone : ∀ e sent, .hold e requestId sent ∉ w.pending) :
    Held entries n { w with book := w.book.dropQueue requestId } := by
  have hmem : ∀ {k id}, id ∈ (w.book.dropQueue requestId).queueOf k → id ∈ w.book.queueOf k := by
    intro k id h
    rw [Book.queueOf_dropQueue] at h
    exact List.mem_of_mem_erase h
  have hkept : ∀ {e id sent}, Request.hold e id sent ∈ w.pending → id ∈ w.book.boundIds →
      id ∈ w.book.boundIds.erase requestId := by
    intro e id sent hpending h
    refine Finset.mem_erase.mpr ⟨?_, h⟩
    rintro rfl
    exact hnone e sent hpending
  exact ⟨hh.released_lt, fun e id sent h => (hh.sent e id sent h).imp_right (hkept h),
    fun k id h => hh.waiting k id (hmem h), fun e id sent h hbound => hkept h (hh.pending_bound e id sent h hbound),
    fun k id h => hh.unbound k id (hmem h), hh.payloads, hh.ids, hh.bound, hh.binding, hh.terms, hh.live⟩

theorem Held.note (hh : Held entries n w) (hw : Wired entries toLowerCase w) {terms : Terms}
    (hfresh : w.book.byPayload payload = none) (hspelled : ∀ e id, w.book.idsByObject e = some id →
      matchKey toLowerCase (entries e) = matchKey toLowerCase terms → entries e = terms) :
    Held entries n (note toLowerCase w payload terms) := by
  -- nothing waits, or the head of the queue is taken
  obtain hsame | ⟨requestId, rest, hqueue, hnote⟩ := note_cases toLowerCase w payload terms
  · rw [hsame]
    exact hh
  have hhead : requestId ∈ w.book.queueOf (matchKey toLowerCase terms) := by
    rw [hqueue]
    exact List.mem_cons_self
  obtain ⟨hids, -, -, hboundIds, hbyPayload⟩ := w.book.notePayload_fields payload hqueue
  have hin : ∀ {id}, id ∈ w.book.boundIds → id ∈ insert requestId w.book.boundIds := fun h => Finset.mem_insert_of_mem h
  have hunbound := hh.unbound _ requestId hhead
  have hnopayload : ∀ b ∈ w.bindings, b.payload ≠ payload := by
    intro b hb heq
    have hb' := hh.bound b hb
    rw [heq, hfresh] at hb'
    cases hb'
  rw [hnote]
  refine ⟨hh.released_lt, fun e id sent h => ?_, fun k id h => hh.waiting k id ((hw.mem_note hqueue).mp h).2,
    fun e id sent h hbound => ?_, fun k id h b hb => ?_, ?_, ?_, fun b hb => ?_, fun p id h => ?_, fun b hb => ?_,
    fun b hb => ?_⟩
  · show w.released id < sent ∨ id ∈ (w.book.notePayload payload _).1.boundIds
    rw [hboundIds]
    exact (hh.sent e id sent h).imp_right hin
  · show id ∈ (w.book.notePayload payload _).1.boundIds
    rw [hboundIds]
    obtain ⟨b, hb, rfl⟩ := hbound
    obtain hb | hb := List.mem_append.mp hb
    · exact hin (hh.pending_bound e _ sent h ⟨b, hb, rfl⟩)
    · rw [List.mem_singleton.mp hb]
      exact Finset.mem_insert_self _ _
  · obtain ⟨hne, h⟩ := (hw.mem_note hqueue).mp h
    obtain hb | hb := List.mem_append.mp hb
    · exact hh.unbound k id h b hb
    · rw [List.mem_singleton.mp hb]
      exact hne.symm
  · rw [List.map_append, List.map_singleton, List.nodup_append]
    refine ⟨hh.payloads, List.nodup_singleton _, fun p hp q hq hpq => ?_⟩
    obtain ⟨b, hb, rfl⟩ := List.mem_map.mp hp
    exact hnopayload b hb (hpq.trans (List.mem_singleton.mp hq))
  · rw [List.map_append, List.map_singleton, List.nodup_append]
    refine ⟨hh.ids, List.nodup_singleton _, fun p hp q hq hpq => ?_⟩
    obtain ⟨b, hb, rfl⟩ := List.mem_map.mp hp
    exact hunbound b hb (hpq.trans (List.mem_singleton.mp hq))
  · show (w.book.notePayload payload _).1.byPayload b.payload = _
    rw [hbyPayload]
    obtain hb | hb := List.mem_append.mp hb
    · rw [Function.update_of_ne (hnopayload b hb)]
      exact hh.bound b hb
    · rw [List.mem_singleton.mp hb]
      exact Function.update_self ..
  · change (w.book.notePayload payload _).1.byPayload p = some id at h
    rw [hbyPayload] at h
    by_cases hp : p = payload
    · rw [hp, Function.update_self] at h
      exact ⟨_, List.mem_append_right _ List.mem_cons_self, Option.some.inj h⟩
    · rw [Function.update_of_ne hp] at h
      obtain ⟨b, hb, hbid⟩ := hh.binding p id h
      exact ⟨b, List.mem_append_left _ hb, hbid⟩
  · show ∃ e, (w.book.notePayload payload _).1.idsByObject e = some b.requestId ∧ _
    rw [hids]
    obtain hb | hb := List.mem_append.mp hb
    · exact hh.terms b hb
    · rw [List.mem_singleton.mp hb]
      obtain ⟨e, he, hkey⟩ := hw.key _ requestId hhead
      exact ⟨e, he, hspelled e requestId he hkey.symm⟩
  · obtain hb | hb := List.mem_append.mp hb
    · exact hh.live b hb
    · rw [List.mem_singleton.mp hb]
      exact decide_eq_true (hh.waiting _ requestId hhead)

/-! ## Steps and runs -/

theorem Wired.tick (hw : Wired entries toLowerCase w) : Wired entries toLowerCase (tick w) :=
  ⟨hw.ids_inj, hw.ids_lt, hw.queued, hw.key, hw.nodup, hw.posted, hw.matched⟩

theorem Held.tick (hh : Held entries (w.now + 1) w) : Held entries (tick w).now (tick w) :=
  ⟨hh.released_lt, hh.sent, hh.waiting, hh.pending_bound, hh.unbound, hh.payloads, hh.ids, hh.bound,
    hh.binding, hh.terms,
    hh.live⟩

theorem note_now (payload : Ref) (terms : Terms) : (note toLowerCase w payload terms).now = w.now := by
  obtain hsame | ⟨_, _, _, hnote⟩ := note_cases toLowerCase w payload terms
  · rw [hsame]
  · rw [hnote]

/-- What every run keeps. -/
def Kept (toLowerCase : String → String) (entries : Ref → Terms) (w : World) : Prop :=
  Wired entries toLowerCase w ∧ Ordered toLowerCase (w.now + 1) w

theorem act_kept (hw : Wired entries toLowerCase w) (ho : Ordered toLowerCase w.now w) (event : Event) :
    Kept toLowerCase entries (act toLowerCase entries w event) := by
  have hlate := ho.mono (Nat.le_succ w.now)
  refine act_keeps (fun entry _ => ?_) (fun n entry requestId sent hn => ?_) (fun entry requestId _ _ => ?_)
    (fun payload requestId _ => ?_) (fun payload _ terms _ _ => ?_) fun pending lastReceipt hnew => ?_
  · exact ⟨hw.post entry, hlate.congr rfl (queueOf_post _ entry) rfl⟩
  · have hrest : Wired entries toLowerCase { w with pending := w.pending.eraseIdx n } :=
      hw.quiet (noNewHold_eraseIdx n)
    have horest : Ordered toLowerCase w.now { w with pending := w.pending.eraseIdx n } :=
      ho.congr rfl (fun _ => rfl) rfl
    exact ⟨hrest.accept sent (hw.posted entry requestId sent (List.mem_of_getElem? hn)),
      Ordered.accept horest hrest entry requestId sent⟩
  · exact ⟨(hw.drop requestId).release requestId, (hlate.drop requestId).congr rfl (fun _ => rfl) rfl⟩
  · exact ⟨hw.release requestId, hlate.congr rfl (fun _ => rfl) rfl⟩
  · refine ⟨hw.note payload terms, ?_⟩
    rw [note_now]
    exact hlate.note payload terms
  · exact ⟨hw.quiet hnew, hlate.congr rfl (fun _ => rfl) rfl⟩

theorem step_kept (h : Kept toLowerCase entries w) (event : Event) :
    Kept toLowerCase entries (step toLowerCase entries w event) :=
  act_kept h.1.tick (h.2.congr rfl (fun _ => rfl) rfl) event

end Cases

/-- **What is asked of a client's bindings.** -/
structure Bound (toLowerCase : String → String) (entries : Ref → Terms) (w : World) : Prop where
  payload_once : (w.bindings.map Binding.payload).Nodup
  id_once : (w.bindings.map Binding.requestId).Nodup
  bound : ∀ b ∈ w.bindings, w.book.byPayload b.payload = some b.requestId
  placed : ∀ b ∈ w.bindings, ∃ e, w.book.idsByObject e = some b.requestId ∧ entries e = b.terms
  waiting : ∀ k, ∀ id ∈ w.book.queueOf k, Live w id
  live : ∀ b ∈ w.bindings, b.live = true
  order : ∀ k, (timeline toLowerCase w k).Pairwise (· < ·)

def sampleTerms : Terms := ⟨5, "0xusdc", "eip155:84532", "0xshop"⟩

def sampleRequirements : Requirements := ⟨some 5, none, "0xusdc", "eip155:84532", "0xshop"⟩

def sampleResult : Result := ⟨"", "", false⟩

/-- Every entry asks for the same terms. -/
def sampleRun (events : List Event) : World := Trace.run (step id fun _ => sampleTerms) start events

/-- What the payloads of a run took. -/
def taken (w : World) : List (Ref × Id × Bool) := w.bindings.map fun b => (b.payload, b.requestId, b.live)

/-- Two holds of equal terms, the first one's answer late; a third is released before a payload could take it, and the
    payment of the second payload fails. -/
def sampleEvents : List Event := [.holdEntry 0, .holdEntry 1, .answer 1 (some sampleResult),
  .notePayload (some 7) sampleRequirements, .answer 0 (some sampleResult), .holdEntry 2, .answer 0 (some sampleResult),
  .releaseEntry 2, .notePayload (some 8) sampleRequirements, .onPaymentResponse ⟨some 8, some false, false⟩]

end HoldClient
