import Mathlib.Data.List.Induction
import Chit402.JsTextProofs
import Chit402.OrderedMapProofs

/-! # The spend-hold store

    `SpendHoldStore`: a call reserves its worst-case cost under every
    ceiling that applies to it, and later consumes or releases that hold.
    Holds live in one map by request id.  Each operation sweeps the holds
    whose lease is over, does its own work, and saves; a failed save is
    undone.  The store lock serialises the operations, so a run is a list
    of them, each with the clock value and the save results it met. -/

namespace SpendHold

variable {τ : Type}

/-! ## Amounts -/

/-- A value read as an atomic amount: absent, a bigint, or any other value by its text. -/
inductive Amount
  | absent
  | bigint (n : ℤ)
  | text (s : String)
deriving DecidableEq

/-- Atomic USDC. None when the value is not a non-negative integer. -/
def parseAtomic : Amount → Option ℕ
  | .absent => none
  | .bigint n => if 0 ≤ n then some n.toNat else none
  | .text s =>
    let digits := JsText.trim s.toList
    if digits ≠ [] ∧ digits.all Char.isDigit then
      some (digits.foldl (fun n c => 10 * n + (c.toNat - '0'.toNat)) 0)
    else none

/-! ## Legs and holds -/

/-- One ceiling a hold counts against. -/
structure Leg where
  scope : String
  key : String
  cap : ℕ
deriving DecidableEq

/-- A ceiling as a caller passes it. `settled` is the callback's answer: it may be missing, throw or return. -/
structure Ceiling where
  scope : Option String
  key : Option String
  cap : Amount
  settled : Option (Option Amount)

/-- A leg the verdict reads, with its settled callback. -/
structure CheckedLeg extends Leg where
  settled : Option (Option Amount)

inductive HoldState
  | OPEN
  | CONSUMED
  | RELEASED
  | EXPIRED
deriving DecidableEq

/-- One hold. Times are the host's. -/
structure Hold (τ : Type) where
  id : String
  request_id : String
  reserved : ℕ
  consumed_amount : ℕ
  shortfall : ℕ
  state : HoldState
  legs : List Leg
  created_at : τ
  expires_at : τ
  consumed_at : Option τ
  released_at : Option τ
deriving DecidableEq

/-- What the store takes from its host. Clock values are any values the host compares. -/
structure Host (τ : Type) where
  /-- `expires_at <= now` -/
  due : τ → τ → Bool
  /-- `now + ttlMs` -/
  expiry : τ → τ
  /-- `new Date(t).toISOString()` returns; a value out of its range throws. -/
  dated : τ → Bool
  toLowerCase : String → String

/-- Epoch milliseconds, with a TTL. A date covers a hundred million days either side. -/
def millisHost (ttlMs : ℤ) (toLowerCase : String → String) : Host ℤ where
  due expires_at now := expires_at ≤ now
  expiry now := now + ttlMs
  dated t := t.natAbs ≤ 8640000000000000
  toLowerCase := toLowerCase

/-- What one operation meets: the clock, the results of its two saves, and a fresh id. -/
structure Outside (τ : Type) where
  now : τ
  sweepSaved : Bool
  saved : Bool
  uuid : String

inductive Fault
  | persistFailed
  | rangeError
deriving DecidableEq

structure Store (τ : Type) where
  byRequest : OrderedMap String (Hold τ)

structure PublicHold (τ : Type) where
  id : String
  request_id : String
  reserved : ℕ
  consumed_amount : Option ℕ
  released : Option ℤ
  shortfall : ℕ
  state : HoldState
  ceilings : List Leg
  created_at : τ
  expires_at : τ
  consumed_at : Option τ
  released_at : Option τ

/-- A refusal by `_verdict`. -/
structure CeilingExceeded where
  ceiling : String
  scope_key : String
  cap : ℕ
  spent : ℕ
  held : ℕ
  remaining : ℕ
  requested : ℕ
deriving DecidableEq

inductive Reply (τ : Type)
  | requestIdRequired
  | invalidAmount (requested : Amount)
  | ceilingExceeded (refusal : CeilingExceeded)
  | unlimited
  | fits (requested : ℕ)
  | held (hold : PublicHold τ) (idempotent : Bool)
  | consumed (hold : PublicHold τ) (idempotent : Bool) (released : Option ℤ) (shortfall : Option ℕ)
  | released (hold : PublicHold τ) (idempotent : Bool)
  | holdNotFound
  | holdNotOpen (state : HoldState) (hold : PublicHold τ)
  | rows (holds : List (PublicHold τ))
  | sum (total : ℕ)
  | swept

/-- Every operation leaves a store and answers or throws. -/
abbrev Outcome (τ ρ : Type) := Store τ × Except Fault ρ

/-! ## The operations -/

section Operations

variable (host : Host τ)

def Hold.public (hold : Hold τ) : Except Fault (PublicHold τ) :=
  if host.dated hold.created_at && host.dated hold.expires_at then
    .ok {
      id := hold.id
      request_id := hold.request_id
      reserved := hold.reserved
      consumed_amount := if hold.state = .CONSUMED then some hold.consumed_amount else none
      released := if hold.state = .CONSUMED then some (hold.reserved - hold.consumed_amount) else none
      shortfall := hold.shortfall
      state := hold.state
      ceilings := hold.legs
      created_at := hold.created_at
      expires_at := hold.expires_at
      consumed_at := hold.consumed_at
      released_at := hold.released_at }
  else .error .rangeError

def Hold.isDue (now : τ) (hold : Hold τ) : Bool :=
  hold.state = .OPEN && host.due hold.expires_at now

def Hold.expire (now : τ) (hold : Hold τ) : Hold τ :=
  if hold.isDue host now then { hold with state := .EXPIRED, released_at := some now } else hold

/-- `_expire`. An undatable `now` throws at the first due hold, after its state was written. -/
def expire (s : Store τ) (now : τ) (saved : Bool) : Outcome τ Bool :=
  match s.byRequest.entries.find? fun e => e.2.isDue host now with
  | none => (s, .ok false)
  | some first =>
    if host.dated now then
      if saved then (⟨s.byRequest.mapValues (Hold.expire host now)⟩, .ok true)
      else (s, .error .persistFailed)
    else (⟨s.byRequest.set first.1 { first.2 with state := .EXPIRED }⟩, .error .rangeError)

def Hold.hasLeg (scope key : String) (hold : Hold τ) : Bool :=
  hold.legs.any fun item => item.scope = scope && item.key = key

/-- What one hold adds to `_settled`. -/
def Hold.spent (scope key : String) (hold : Hold τ) : ℕ :=
  if hold.state = .CONSUMED ∧ hold.hasLeg scope key then hold.consumed_amount else 0

/-- What one hold adds to `_openSum`. -/
def Hold.held (scope key : String) (now : τ) (hold : Hold τ) : ℕ :=
  if hold.state = .OPEN ∧ ¬ host.due hold.expires_at now ∧ hold.hasLeg scope key then hold.reserved else 0

def settled (s : Store τ) (leg : CheckedLeg) : ℕ :=
  match leg.settled with
  | some answer => (answer.bind parseAtomic).getD 0
  | none => s.byRequest.sum (Hold.spent leg.scope leg.key)

def openSum (s : Store τ) (scope key : String) (now : τ) : ℕ :=
  s.byRequest.sum (Hold.held host scope key now)

/-- `_verdict`: the first leg that would be exceeded, if any. -/
def verdict (s : Store τ) (amount : ℕ) (now : τ) : List CheckedLeg → Option CeilingExceeded
  | [] => none
  | leg :: rest =>
    let spent := settled s leg
    let held := openSum host s leg.scope leg.key now
    let committed := spent + held
    if leg.cap < committed + amount then
      some {
        ceiling := leg.scope
        scope_key := leg.key
        cap := leg.cap
        spent := spent
        held := held
        remaining := leg.cap - committed
        requested := amount }
    else verdict s amount now rest

def normalizeCeiling (c : Ceiling) : Option CheckedLeg :=
  match c.scope, c.key, parseAtomic c.cap with
  | some scope, some key, some cap =>
    if scope = "" then none
    else some {
      scope := scope
      key := if scope = "session" then host.toLowerCase key else key
      cap := cap
      settled := c.settled }
  | _, _, _ => none

def normalizeCeilings (ceilings : List Ceiling) : List CheckedLeg := ceilings.filterMap (normalizeCeiling host)

def existingLive (s : Store τ) (requestId : String) : Option (Hold τ) :=
  (s.byRequest.lookup requestId).filter fun hold => hold.state = .OPEN ∨ hold.state = .CONSUMED

/-- The hold `_commit` writes. -/
def newHold (requestId : String) (amount : ℕ) (legs : List CheckedLeg) (now : τ) (uuid : String) : Hold τ where
  id := "hold_" ++ uuid
  request_id := requestId
  reserved := amount
  consumed_amount := 0
  shortfall := 0
  state := .OPEN
  legs := legs.map CheckedLeg.toLeg
  created_at := now
  expires_at := host.expiry now
  consumed_at := none
  released_at := none

/-- `_commit`. A failed save deletes the id, whatever stood under it before. -/
def commit (s : Store τ) (hold : Hold τ) (saved : Bool) : Outcome τ (Reply τ) :=
  let written := s.byRequest.set hold.request_id hold
  if saved then (⟨written⟩, (hold.public host).map (.held · false))
  else (⟨AList.erase hold.request_id written⟩, .error .persistFailed)

/-- Run `body` after a sweep that did not throw. -/
def afterSweep {ρ : Type} (s : Store τ) (o : Outside τ) (body : Store τ → Outcome τ ρ) : Outcome τ ρ :=
  match expire host s o.now o.sweepSaved with
  | (s', .ok _) => body s'
  | (s', .error fault) => (s', .error fault)

def openReserved (s : Store τ) (scope key : String) (o : Outside τ) : Outcome τ (Reply τ) :=
  afterSweep host s o fun s => (s, .ok (.sum (openSum host s scope key o.now)))

def snapshot (s : Store τ) (o : Outside τ) : Outcome τ (List (PublicHold τ)) :=
  afterSweep host s o fun s =>
    (s, (s.byRequest.values.filter fun hold => hold.state = .OPEN ∨ hold.state = .CONSUMED).mapM (Hold.public host))

def preview (s : Store τ) (ceilings : List Ceiling) (amount : Amount) (o : Outside τ) : Outcome τ (Reply τ) :=
  afterSweep host s o fun s =>
    match parseAtomic amount with
    | none => (s, .ok (.invalidAmount amount))
    | some requested =>
      if requested = 0 then (s, .ok (.invalidAmount amount))
      else
        let legs := normalizeCeilings host ceilings
        if legs.isEmpty then (s, .ok .unlimited)
        else match verdict host s requested o.now legs with
          | some refusal => (s, .ok (.ceilingExceeded refusal))
          | none => (s, .ok (.fits requested))

/-- Reserve `amount` against every ceiling, or reserve none. -/
def reserve (s : Store τ) (requestId : String) (amount : Amount) (ceilings : List Ceiling) (o : Outside τ) :
    Outcome τ (Reply τ) :=
  afterSweep host s o fun s =>
    if requestId = "" then (s, .ok .requestIdRequired)
    else match existingLive s requestId with
      | some live => (s, (live.public host).map (.held · true))
      | none =>
        match parseAtomic amount with
        | none => (s, .ok (.invalidAmount amount))
        | some requested =>
          if requested = 0 then (s, .ok (.invalidAmount amount))
          else
            let legs := normalizeCeilings host ceilings
            if legs.isEmpty then (s, .ok .unlimited)
            else match verdict host s requested o.now legs with
              | some refusal => (s, .ok (.ceilingExceeded refusal))
              | none => commit host s (newHold host requestId requested legs o.now o.uuid) o.saved

/-- What a settle asks for. A missing or unreadable amount asks for the reservation. -/
def wanted (actual : Amount) (reserved : ℕ) : ℕ := (parseAtomic actual).getD reserved

/-- The hold `consume` writes. -/
def Hold.consume (actual : Amount) (hold : Hold τ) : Hold τ :=
  let wanted := wanted actual hold.reserved
  { hold with
    state := .CONSUMED
    consumed_amount := if hold.reserved < wanted then hold.reserved else wanted
    shortfall := if hold.reserved < wanted then wanted - hold.reserved else 0 }

/-- Settle the hold at `actual` and stop counting the reserved difference. -/
def consume (s : Store τ) (requestId : String) (actual : Amount) (o : Outside τ) : Outcome τ (Reply τ) :=
  afterSweep host s o fun s =>
    match s.byRequest.lookup requestId with
    | none => (s, .ok .holdNotFound)
    | some hold =>
      match hold.state with
      | .CONSUMED => (s, (hold.public host).map (.consumed · true none none))
      | .OPEN =>
        let used := hold.consume actual
        -- the date is read after the amounts were written and before the save
        if host.dated o.now then
          let dated := { used with consumed_at := some o.now }
          if o.saved then
            (⟨s.byRequest.set requestId dated⟩, (dated.public host).map
              (.consumed · false (some (dated.reserved - dated.consumed_amount)) (some dated.shortfall)))
          else (s, .error .persistFailed)
        else (⟨s.byRequest.set requestId used⟩, .error .rangeError)
      | state => (s, (hold.public host).map (.holdNotOpen state ·))

/-- Drop an open hold. Consumed holds stay. -/
def release (s : Store τ) (requestId : String) (o : Outside τ) : Outcome τ (Reply τ) :=
  afterSweep host s o fun s =>
    match s.byRequest.lookup requestId with
    | none => (s, .ok .holdNotFound)
    | some hold =>
      match hold.state with
      | .OPEN =>
        let dropped := { hold with state := .RELEASED }
        if host.dated o.now then
          let dated := { dropped with released_at := some o.now }
          if o.saved then (⟨s.byRequest.set requestId dated⟩, (dated.public host).map (.released · false))
          else (s, .error .persistFailed)
        else (⟨s.byRequest.set requestId dropped⟩, .error .rangeError)
      | _ => (s, (hold.public host).map (.released · true))

def expireDue (s : Store τ) (o : Outside τ) : Outcome τ (Reply τ) :=
  afterSweep host s o fun s => (s, .ok .swept)

/-! ## Runs -/

inductive Call
  | reserve (requestId : String) (amount : Amount) (ceilings : List Ceiling)
  | consume (requestId : String) (actual : Amount)
  | release (requestId : String)
  | expireDue
  | preview (ceilings : List Ceiling) (amount : Amount)
  | snapshot
  | openReserved (scope key : String)

def exec (s : Store τ) (o : Outside τ) : Call → Outcome τ (Reply τ)
  | .reserve requestId amount ceilings => reserve host s requestId amount ceilings o
  | .consume requestId actual => consume host s requestId actual o
  | .release requestId => release host s requestId o
  | .expireDue => expireDue host s o
  | .preview ceilings amount => preview host s ceilings amount o
  | .snapshot => ((snapshot host s o).1, (snapshot host s o).2.map .rows)
  | .openReserved scope key => openReserved host s scope key o

/-- A store that has answered nothing yet. -/
def emptyStore : Store τ := ⟨∅⟩

/-- The store after a list of serialised calls. -/
def run (calls : List (Call × Outside τ)) : Store τ :=
  calls.foldl (fun s c => (exec host s c.2 c.1).1) emptyStore

end Operations

end SpendHold
