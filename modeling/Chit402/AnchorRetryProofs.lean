import Mathlib.Data.Rat.Floor
import Chit402.JsTextProofs
import Mathlib.Data.List.Infix

/-! # Asking a chain's endpoints

    `runAnchorSide` asks the endpoints of one chain in order, a few times
    each, and stops at the first answer that is not a failure of the call.
    A call that an endpoint rejected is not repeated there; the next endpoint
    is asked, and the rejection stays the loop's own result unless a later
    endpoint gives a definite answer.

    Reasons are texts: a fetcher may put its own code among them. -/

namespace AnchorRetry

open JsText (lowered)

inductive Side
  | base
  | solana
deriving DecidableEq

def Side.text : Side → String
  | .base => "base"
  | .solana => "solana"

/-! ## Classes of failures -/

/-- `err.rpcCode`, when it is there. -/
inductive RpcCode
  | number (q : ℚ)
  | other

/-- A thrown value. `message` is its text when it is no `Error`. -/
structure RpcError where
  isError : Bool
  name : String
  message : String
  rpcCode : Option RpcCode

inductive AnchorRpcClass
  | rpc_timeout
  | rpc_transport
  | rpc_invalid_params
  | rpc_rejected
deriving DecidableEq

def contains (text : List Char) (part : String) : Bool := decide (part.toList <:+: text)

def isLineEnd (c : Char) : Bool := c.toNat ∈ [0x0a, 0x0d, 0x2028, 0x2029]

def afterText (mark : String) (text : List Char) : Option (List Char) :=
  if mark.toList <+: text then some (text.drop mark.length) else none

/-- `TRANSPORT_MESSAGE` -/
def isTransportMessage (message : String) : Bool :=
  let text := lowered message
  let threeDigits := fun digits : List Char => digits.length = 3 && digits.all Char.isDigit
  (afterText "rpc_http_" text).any threeDigits
    || text = "rpc_network".toList
    || (afterText "rpc_network:" text).any (fun rest => rest.all fun c => !isLineEnd c)
    || (afterText "http " text).any threeDigits
    || ["socket hang up", "econnreset", "econnrefused", "etimedout", "epipe", "ehostunreach", "enetunreach",
      "eai_again", "enotfound", "connection reset"].any (contains text)

/-- `rpcFailureReason(err) === 'rpc_timeout'` -/
def isTimeoutFailure (err : RpcError) : Bool :=
  err.name = "TimeoutError" || err.name = "AbortError" || contains (lowered err.message) "timeout"
    || contains (lowered err.message) "aborted"

def classifyAnchorRpcError (err : RpcError) : AnchorRpcClass :=
  if err.message ∈ ["rpc_timeout", "base_rpc_timeout", "solana_rpc_timeout"] then .rpc_timeout
  else if err.message ∈ ["rpc_transport", "base_rpc_error", "solana_rpc_error"] then .rpc_transport
  else if err.message ∈ ["rpc_invalid_params", "anchor_ref_invalid"] then .rpc_invalid_params
  else if err.message ∈ ["rpc_rejected", "base_rpc_rejected", "solana_rpc_rejected"] then .rpc_rejected
  else match err.rpcCode with
    | some (.number q) => if q = -32602 ∨ q = -32600 then .rpc_invalid_params else .rpc_rejected
    | some .other => .rpc_rejected
    | none =>
      if isTimeoutFailure err then .rpc_timeout
      else if isTransportMessage err.message then .rpc_transport
      else .rpc_rejected

def mapAnchorRpcError (err : RpcError) (side : Side) : String :=
  let message := if err.isError then err.message else ""
  if message = side.text ++ "_rpc_null" then message
  else if side = .solana ∧ (message = "no_genesis" ∨ message = "not_finalized") then message
  else match classifyAnchorRpcError err with
    | .rpc_timeout => side.text ++ "_rpc_timeout"
    | .rpc_transport => side.text ++ "_rpc_error"
    -- a node that refuses a well-formed ref rejects the call; the ref is not thereby bad
    | .rpc_invalid_params | .rpc_rejected => side.text ++ "_rpc_rejected"

/-- Reasons that mean the anchor was not observed. -/
def ANCHOR_UNCHECKED_REASONS : List String :=
  ["tx_not_found", "receipt_missing", "block_number_missing", "confirmation_shallow", "chain_id_missing",
    "receipt_status_missing", "not_finalized", "base_rpc_null", "base_rpc_error", "base_rpc_timeout",
    "solana_rpc_null", "solana_rpc_error", "solana_rpc_timeout", "base_rpc_rejected", "solana_rpc_rejected",
    "anchor_inconsistent"]

def isUncheckedAnchorReason (reason : Option String) : Bool := reason.any (· ∈ ANCHOR_UNCHECKED_REASONS)

/-- Only an RPC that did not answer is retried, or covered by the other chain. -/
def isRpcLookupFailure (reason : Option String) : Bool :=
  reason.any (· ∈ ["base_rpc_error", "base_rpc_timeout", "base_rpc_null", "solana_rpc_error", "solana_rpc_timeout",
    "solana_rpc_null"])

def rpcRejected (side : Side) : String := side.text ++ "_rpc_rejected"

theorem unchecked_of_lookupFailure {reason : Option String} (h : isRpcLookupFailure reason = true) :
    isUncheckedAnchorReason reason = true := by
  cases reason with
  | none => cases h
  | some r =>
    simp only [isRpcLookupFailure, isUncheckedAnchorReason, Option.any_some, decide_eq_true_eq] at h ⊢
    have hsub : ∀ r ∈ ["base_rpc_error", "base_rpc_timeout", "base_rpc_null", "solana_rpc_error", "solana_rpc_timeout",
        "solana_rpc_null"], r ∈ ANCHOR_UNCHECKED_REASONS := by decide
    exact hsub r h

theorem not_lookupFailure_rejected (side : Side) : isRpcLookupFailure (some (rpcRejected side)) = false := by
  cases side <;> decide

/-! ## The loop -/

/-- A number a policy may carry, as comparisons see it. -/
inductive Number
  | nan
  | finite (q : ℚ)
  | infinite (negative : Bool)

/-- The caller's policy. `budgetOver n` is what its clock says of the budget
    before attempt `n`; a pause between attempts only takes time. -/
structure RetryPolicy where
  attemptsPerUrl : Option Number
  budgetOver : ℕ → Bool

def ANCHOR_RPC_ATTEMPTS_PER_URL : ℕ := 2

/-- The rounds of `i < Math.max(1, Math.min(5, attemptsPerUrl))`, from zero up. -/
def perUrl : Option Number → ℕ
  | none => ANCHOR_RPC_ATTEMPTS_PER_URL
  | some .nan => 0
  | some (.finite q) => ⌈max 1 (min 5 q)⌉₊
  | some (.infinite negative) => if negative then 1 else 5

/-- The loop's variables; `state` is what the callback writes. -/
structure Loop (σ : Type) where
  attempts : ℕ
  reason : Option String
  used : Option String
  rejected : Option String
  state : σ

/-- What the loop returns, with the callback's state. -/
structure Ran (σ : Type) where
  attempts : ℕ
  url : Option String
  reason : Option String
  state : σ

section Loop

variable {σ : Type}

def Loop.done (l : Loop σ) : Ran σ where
  attempts := l.attempts
  url := l.used
  reason := if l.rejected.isSome && isRpcLookupFailure l.reason then l.rejected else l.reason
  state := l.state

def Loop.stop (l : Loop σ) : Ran σ := ⟨l.attempts, l.used, l.reason, l.state⟩

def Loop.tried (l : Loop σ) (url : String) (answered : σ × Option String) : Loop σ where
  attempts := l.attempts + 1
  reason := answered.2
  used := some url
  rejected := l.rejected
  state := answered.1

variable (side : Side) (policy : RetryPolicy) (run : String → σ → σ × Option String)

/-- The attempts at one endpoint: a result to return, or on to the next one. -/
def tryUrl (url : String) : ℕ → Loop σ → Except (Ran σ) (Loop σ)
  | 0, l => .ok l
  | left + 1, l =>
    if 0 < l.attempts ∧ policy.budgetOver l.attempts then .error l.done
    else
      let l := l.tried url (run url l.state)
      if l.reason = some (rpcRejected side) then .ok { l with rejected := l.reason }
      else if isRpcLookupFailure l.reason then tryUrl url left l
      else .error l.stop

def tryUrls : List String → Loop σ → Ran σ
  | [], l => l.done
  | url :: rest, l =>
    match tryUrl side policy run url (perUrl policy.attemptsPerUrl) l with
    | .error ran => ran
    | .ok l => tryUrls rest l

def runAnchorSide (urls : List String) (state : σ) : Ran σ :=
  tryUrls side policy run (urls.take 4) ⟨0, none, none, none, state⟩

end Loop

/-! ## What a run reads -/

section Reads

variable {σ τ α ρ : Type} {side : Side} {policy : RetryPolicy}

def Loop.map (f : σ → τ) (l : Loop σ) : Loop τ := ⟨l.attempts, l.reason, l.used, l.rejected, f l.state⟩

def Ran.map (f : σ → τ) (r : Ran σ) : Ran τ := ⟨r.attempts, r.url, r.reason, f r.state⟩

/-- Two callbacks whose states correspond run alike. -/
theorem tryUrl_map {run : String → σ → σ × Option String} {run' : String → τ → τ × Option String} (f : σ → τ)
    (h : ∀ url s, run' url (f s) = (f (run url s).1, (run url s).2)) (url : String) (left : ℕ) (l : Loop σ) :
    tryUrl side policy run' url left (l.map f)
      = match tryUrl side policy run url left l with
        | .error ran => .error (ran.map f)
        | .ok l => .ok (l.map f) := by
  induction left generalizing l with
  | zero => rfl
  | succ left ih =>
    have htried : (l.map f).tried url (run' url (l.map f).state) = (l.tried url (run url l.state)).map f := by
      simp only [Loop.tried, Loop.map, h]
    unfold tryUrl
    by_cases hover : 0 < l.attempts ∧ policy.budgetOver l.attempts
    · rw [if_pos hover, if_pos (by exact hover)]
      rfl
    · rw [if_neg hover, if_neg (by exact hover), htried]
      dsimp only
      rw [ih]
      generalize l.tried url (run url l.state) = next
      by_cases hrejected : next.reason = some (rpcRejected side)
      · rw [if_pos hrejected, if_pos (by exact hrejected)]
        rfl
      · rw [if_neg hrejected, if_neg (by exact hrejected)]
        by_cases hfailed : isRpcLookupFailure next.reason = true
        · rw [if_pos hfailed, if_pos (by exact hfailed)]
        · rw [if_neg hfailed, if_neg (by exact hfailed)]
          rfl

theorem runAnchorSide_map {run : String → σ → σ × Option String} {run' : String → τ → τ × Option String} (f : σ → τ)
    (h : ∀ url s, run' url (f s) = (f (run url s).1, (run url s).2)) (urls : List String) (s : σ) :
    runAnchorSide side policy run' urls (f s) = (runAnchorSide side policy run urls s).map f := by
  have htry : ∀ (urls : List String) (l : Loop σ),
      tryUrls side policy run' urls (l.map f) = (tryUrls side policy run urls l).map f := by
    intro urls
    induction urls with
    | nil =>
      intro l
      rfl
    | cons url rest ih =>
      intro l
      rw [tryUrls, tryUrls, tryUrl_map f h]
      cases tryUrl side policy run url (perUrl policy.attemptsPerUrl) l with
      | error ran => rfl
      | ok next => exact ih next
  exact htry (urls.take 4) ⟨0, none, none, none, s⟩

/-- A callback that reads one answer a call and writes what it says. -/
def reading (answer : ℕ → α) (reasonOf : α → Option String) (write : α → ρ → ρ) (_url : String) (s : ℕ × ρ) :
    (ℕ × ρ) × Option String :=
  ((s.1 + 1, write (answer s.1) s.2), reasonOf (answer s.1))

/-- What is written after a number of answers. -/
def written (answer : ℕ → α) (write : α → ρ → ρ) (s : ρ) : ℕ → ρ
  | 0 => s
  | n + 1 => write (answer n) (written answer write s n)

/-- How many answers of a chain are obtained, by the reasons they give. -/
def attemptsMade (side : Side) (policy : RetryPolicy) (urls : List String) (reason : ℕ → Option String) : ℕ :=
  (runAnchorSide side policy (reading reason id fun _ s => s) urls (0, ())).attempts

theorem runAnchorSide_attempts (urls : List String) (answer : ℕ → α) (reasonOf : α → Option String) (write : α → ρ → ρ)
    (s : ρ) : (runAnchorSide side policy (reading answer reasonOf write) urls (0, s)).attempts
      = attemptsMade side policy urls (fun k => reasonOf (answer k)) := by
  have hmap := @runAnchorSide_map _ _ side policy (reading answer reasonOf write)
    (reading (fun k => reasonOf (answer k)) id fun _ s => s) (fun s => (s.1, ())) (fun _ _ => rfl) urls (0, s)
  unfold attemptsMade
  rw [hmap]
  rfl

/-- The reasons after which the loop goes on. -/
def Retried (side : Side) (reason : Option String) : Prop :=
  reason = some (rpcRejected side) ∨ isRpcLookupFailure reason = true

/-- **The loop's invariant**: every answer so far was a failure or a rejection,
    the last one is at hand, and a rejection among them is kept. -/
structure Follows (side : Side) (reason : ℕ → Option String) (content : ℕ → ρ) (l : Loop (ℕ × ρ)) : Prop where
  count : l.state.1 = l.attempts
  content : l.state.2 = content l.attempts
  retried : ∀ k < l.attempts, Retried side (reason k)
  last : ∀ k, k + 1 = l.attempts → l.reason = reason k
  kept : l.rejected = none ∨ l.rejected = some (rpcRejected side)
  rejected : l.rejected.isSome = true ↔ ∃ k < l.attempts, reason k = some (rpcRejected side)

/-- What the loop returns, by the answers it read. -/
structure Returns (side : Side) (reason : ℕ → Option String) (content : ℕ → ρ) (r : Ran (ℕ × ρ)) : Prop where
  content : r.state.2 = content r.attempts
  retried : ∀ k, k + 1 < r.attempts → Retried side (reason k)
  /-- A rejection stays the result when the last answer was a failure. -/
  reason : ∀ k, k + 1 = r.attempts →
    (isRpcLookupFailure (reason k) = true → (∃ j < r.attempts, reason j = some (rpcRejected side)) →
      r.reason = some (rpcRejected side))
    ∧ (isRpcLookupFailure (reason k) = false → r.reason = reason k)

variable {reason : ℕ → Option String} {content : ℕ → ρ}

theorem Follows.done {l : Loop (ℕ × ρ)} (h : Follows side reason content l) : Returns side reason content l.done where
  content := h.content
  retried k hk := h.retried k (Nat.lt_of_succ_lt hk)
  reason k hk := by
    have hlast := h.last k hk
    constructor
    · intro hfailed hrejected
      have hsome := h.rejected.2 hrejected
      rcases h.kept with hnone | hkept
      · rw [hnone] at hsome
        cases hsome
      · simp only [Loop.done, hlast, hfailed, hkept, Bool.and_true]
        rfl
    · intro hother
      simp only [Loop.done, hlast, hother, Bool.and_false]
      rfl

variable {answer : ℕ → α} {reasonOf : α → Option String} {write : α → ρ → ρ} {s : ρ}

/-- **STEP**: one more answer, which the loop goes on after. -/
theorem Follows.tried {l : Loop (ℕ × ρ)} (url : String)
    (h : Follows side (fun k => reasonOf (answer k)) (written answer write s) l)
    (hretried : Retried side (reasonOf (answer l.attempts))) (rejected : Option String)
    (hrejected : rejected = if reasonOf (answer l.attempts) = some (rpcRejected side) then some (rpcRejected side)
      else l.rejected) : Follows side (fun k => reasonOf (answer k)) (written answer write s)
      { l.tried url (reading answer reasonOf write url l.state) with rejected := rejected } where
  count := by
    simp only [Loop.tried, reading, h.count]
  content := by
    simp only [Loop.tried, reading, h.count, h.content]
    rfl
  retried k hk := by
    rcases Nat.lt_succ_iff_lt_or_eq.1 hk with hk | rfl
    · exact h.retried k hk
    · exact hretried
  last k hk := by
    have hk' : k = l.attempts := Nat.succ.inj hk
    subst hk'
    simp only [Loop.tried, reading, h.count]
  kept := by
    rw [hrejected]
    split_ifs
    · exact Or.inr rfl
    · exact h.kept
  rejected := by
    rw [hrejected]
    have hsplit : (∃ k < l.attempts + 1, reasonOf (answer k) = some (rpcRejected side))
        ↔ reasonOf (answer l.attempts) = some (rpcRejected side)
          ∨ ∃ k < l.attempts, reasonOf (answer k) = some (rpcRejected side) := by
      constructor
      · rintro ⟨k, hk, hreason⟩
        rcases Nat.lt_succ_iff_lt_or_eq.1 hk with hk | rfl
        · exact Or.inr ⟨k, hk, hreason⟩
        · exact Or.inl hreason
      · rintro (hreason | ⟨k, hk, hreason⟩)
        · exact ⟨l.attempts, Nat.lt_succ_self _, hreason⟩
        · exact ⟨k, Nat.lt_succ_of_lt hk, hreason⟩
    refine Iff.trans ?_ hsplit.symm
    split_ifs with hnow
    · exact ⟨fun _ => Or.inl hnow, fun _ => rfl⟩
    · rw [h.rejected]
      exact ⟨Or.inr, fun hor => hor.resolve_left hnow⟩

/-- An answer that is no failure ends the loop. -/
theorem Follows.stop {l : Loop (ℕ × ρ)} {url : String}
    (h : Follows side (fun k => reasonOf (answer k)) (written answer write s) l)
    (hdefinite : ¬ Retried side (reasonOf (answer l.attempts))) :
    Returns side (fun k => reasonOf (answer k)) (written answer write s)
      (l.tried url (reading answer reasonOf write url l.state)).stop where
  content := by
    simp only [Loop.stop, Loop.tried, reading, h.count, h.content]
    rfl
  retried k hk := h.retried k (Nat.lt_of_succ_lt_succ hk)
  reason k hk := by
    have hk' : k = l.attempts := Nat.succ.inj hk
    subst hk'
    have hnotfailed : isRpcLookupFailure (reasonOf (answer l.attempts)) = false := by
      rw [← Bool.not_eq_true]
      exact fun hfailed => hdefinite (Or.inr hfailed)
    refine ⟨fun hfailed => ?_, fun _ => ?_⟩
    · rw [hnotfailed] at hfailed
      cases hfailed
    · simp only [Loop.stop, Loop.tried, reading, h.count]

variable (policy) in
theorem tryUrl_follows (url : String) (left : ℕ) {l : Loop (ℕ × ρ)}
    (h : Follows side (fun k => reasonOf (answer k)) (written answer write s) l) :
    match tryUrl side policy (reading answer reasonOf write) url left l with
    | .error ran => Returns side (fun k => reasonOf (answer k)) (written answer write s) ran
    | .ok next => Follows side (fun k => reasonOf (answer k)) (written answer write s) next := by
  induction left generalizing l with
  | zero => exact h
  | succ left ih =>
    unfold tryUrl
    have hreason : (l.tried url (reading answer reasonOf write url l.state)).reason = reasonOf (answer l.attempts) := by
      simp only [Loop.tried, reading, h.count]
    split_ifs with hover
    · exact h.done
    · dsimp only
      -- the three ways on: the next endpoint, one more attempt here, or a result
      by_cases hrejected : reasonOf (answer l.attempts) = some (rpcRejected side)
      · rw [if_pos (hreason.trans hrejected)]
        exact Follows.tried url h (Or.inl hrejected) _ (by rw [if_pos hrejected, hreason, hrejected])
      · rw [if_neg (by rwa [hreason])]
        by_cases hfailed : isRpcLookupFailure (reasonOf (answer l.attempts)) = true
        · rw [if_pos (by rwa [hreason])]
          exact ih (Follows.tried url h (Or.inr hfailed) l.rejected (by rw [if_neg hrejected]))
        · rw [if_neg (by rwa [hreason])]
          exact h.stop fun hretried => hretried.elim hrejected hfailed

/-- **RUN**: what `runAnchorSide` returns is decided by the answers it read. -/
theorem runAnchorSide_returns (urls : List String) :
    Returns side (fun k => reasonOf (answer k)) (written answer write s)
      (runAnchorSide side policy (reading answer reasonOf write) urls (0, s)) := by
  have hall : ∀ (urls : List String) (l : Loop (ℕ × ρ)),
      Follows side (fun k => reasonOf (answer k)) (written answer write s) l →
      Returns side (fun k => reasonOf (answer k)) (written answer write s)
        (tryUrls side policy (reading answer reasonOf write) urls l) := by
    intro urls
    induction urls with
    | nil => exact fun l h => h.done
    | cons url rest ih =>
      intro l h
      have hone := tryUrl_follows policy url (perUrl policy.attemptsPerUrl) h
      rw [tryUrls]
      cases hran : tryUrl side policy (reading answer reasonOf write) url (perUrl policy.attemptsPerUrl) l with
      | error ran =>
        rw [hran] at hone
        exact hone
      | ok next =>
        rw [hran] at hone
        exact ih next hone
  refine hall (urls.take 4) _ ⟨rfl, rfl, ?_, ?_, Or.inl rfl, ?_⟩
  · exact fun k hk => absurd hk (Nat.not_lt_zero k)
  · exact fun k hk => absurd hk (Nat.succ_ne_zero k)
  · simp

end Reads

end AnchorRetry
