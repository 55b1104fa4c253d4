import Chit402.JsTextProofs
import Chit402.OrderedMapProofs
import Chit402.TraceProofs
import Mathlib.Data.Finset.Insert

/-! # The life of a challenge nonce

    `ChallengeStore` keeps one record for each issued nonce.  A caller claims
    it under a lease, submits the payment, and either marks the nonce spent
    or gives it back.  A nonce has two spellings, raw and `0x`-prefixed, and
    every operation looks under both.  Leases are read lazily: an expired one
    turns to `unknown` only when `get` or `claim` meets it. -/

namespace ChallengeNonce

open OrderedMap Trace JsText

variable {δ μ : Type}

/-! ## Records and spellings -/

inductive ChallengeState
  | issued
  | claimed
  | submitted
  | spent
  | released
  | unknown
deriving DecidableEq

/-- A challenge record. `data` stands for the quoted fields, which no operation here reads. -/
structure Challenge (δ μ : Type) where
  nonce : List Char
  expiresAt : ℤ
  state : ChallengeState
  lease_owner : Option String
  lease_until : Option ℤ
  payment_hash : Option String
  settlement : Option μ
  data : δ

/-- What `put` is given. A field it leaves out, or a zero `expiresAt`, takes its default. -/
structure PutData (δ μ : Type) where
  expiresAt : Option ℤ
  state : Option ChallengeState
  lease_owner : Option String
  lease_until : Option ℤ
  payment_hash : Option String
  settlement : Option μ
  data : δ

structure Store (δ μ : Type) where
  ttlMs : ℤ
  map : OrderedMap (List Char) (Challenge δ μ)
  spent : Finset (List Char)

/-- The keys a nonce is looked up under. -/
def nonceVariants (nonce : List Char) : List (List Char) :=
  if nonce = [] then []
  else
    let trimmed := trim nonce
    if trimmed.take 2 = ['0', 'x'] then [trimmed, trimmed.drop 2]
    else [trimmed, '0' :: 'x' :: padStart 64 '0' trimmed]

/-! ## The operations -/

def find (s : Store δ μ) (nonce : List Char) : Option (List Char × Challenge δ μ) :=
  (nonceVariants nonce).findSome? fun key => (s.map.lookup key).map (key, ·)

/-- Write a record back under the key it was found at. -/
def write (s : Store δ μ) (key : List Char) (rec : Challenge δ μ) : Store δ μ :=
  { s with map := s.map.set key rec }

/-- `rec.lease_until && Date.now() > rec.lease_until` -/
def Challenge.leaseOver (rec : Challenge δ μ) (now : ℤ) : Bool :=
  match rec.lease_until with
  | some lease_until => lease_until ≠ 0 ∧ lease_until < now
  | none => false

/-- `_gc` -/
def gc (s : Store δ μ) (now : ℤ) : Store δ μ :=
  { s with map := s.map.keep fun rec =>
      rec.state = .spent ∨ rec.state = .unknown ∨ rec.state = .claimed ∨ rec.state = .submitted
        ∨ now ≤ rec.expiresAt }

def put (s : Store δ μ) (nonce : List Char) (data : PutData δ μ) (now : ℤ) : Store δ μ :=
  let s := gc s now
  let nonZero := Option.filter fun t : ℤ => t ≠ 0
  let expiresAt := ((nonZero data.expiresAt).or (nonZero ((s.map.lookup nonce).map Challenge.expiresAt))).getD
    (now + s.ttlMs)
  write s nonce {
    nonce := nonce
    expiresAt := expiresAt
    state := data.state.getD .issued
    lease_owner := data.lease_owner
    lease_until := data.lease_until
    payment_hash := data.payment_hash
    settlement := data.settlement
    data := data.data }

def get (s : Store δ μ) (nonce : List Char) (now : ℤ) : Store δ μ × Option (Challenge δ μ) :=
  match find s nonce with
  | none => (s, none)
  | some (key, rec) =>
    match rec.state with
    | .spent => (s, none)
    | .unknown | .submitted => (s, some rec)
    | .claimed =>
      if rec.leaseOver now then
        let lapsed := { rec with state := .unknown }
        (write s key lapsed, some lapsed)
      else (s, some rec)
    | .issued | .released =>
      if rec.expiresAt < now then ({ s with map := AList.erase key s.map }, none) else (s, some rec)

def isSpent (s : Store δ μ) (nonce : List Char) : Bool :=
  (nonceVariants nonce).any fun key => key ∈ s.spent ∨ (s.map.lookup key).any fun rec => rec.state = .spent

/-- One key of `markSpent`. -/
def spendKey (meta' : Option μ) (s : Store δ μ) (key : List Char) : Store δ μ :=
  { s with
    spent := insert key s.spent
    map := match s.map.lookup key with
      | some rec => s.map.set key { rec with state := .spent, settlement := meta'.or rec.settlement }
      | none => s.map }

def markSpent (s : Store δ μ) (nonce : List Char) (meta' : Option μ) : Store δ μ :=
  if nonce = [] then s
  else (nonceVariants nonce).foldl (spendKey meta') { s with spent := insert nonce s.spent }

inductive ClaimReply (δ μ : Type)
  | ok (challenge : Challenge δ μ)
  | paymentReplayed
  | challengeRequired
  | settleUnconfirmed
  | paymentInFlight

def ClaimReply.granted : ClaimReply δ μ → Bool
  | .ok _ => true
  | _ => false

/-- `owner || 'local'` -/
def ownerName (owner : String) : String := if owner = "" then "local" else owner

def claim (s : Store δ μ) (nonce : List Char) (owner : String) (leaseMs now : ℤ) : Store δ μ × ClaimReply δ μ :=
  if isSpent s nonce then (s, .paymentReplayed)
  else match find s nonce with
    | none => (s, .challengeRequired)
    | some (key, rec) =>
      match rec.state with
      | .submitted => (s, if rec.leaseOver now then .settleUnconfirmed else .paymentInFlight)
      | .unknown => (s, .settleUnconfirmed)
      | .spent => (s, .paymentReplayed)
      | .claimed =>
        if rec.leaseOver now then (write s key { rec with state := .unknown }, .settleUnconfirmed)
        else (s, .paymentInFlight)
      | .released => (s, .paymentInFlight)
      | .issued =>
        if rec.expiresAt < now then ({ s with map := AList.erase key s.map }, .challengeRequired)
        else
          let taken := { rec with
            state := .claimed
            lease_owner := some (ownerName owner)
            lease_until := some (now + leaseMs) }
          (write s key taken, .ok taken)

def noteVerifiedPayment (s : Store δ μ) (nonce : List Char) (paymentHash : String) : Store δ μ × Bool :=
  match find s nonce with
  | none => (s, false)
  | some (key, rec) =>
    if rec.state ≠ .claimed ∧ rec.state ≠ .submitted then (s, false)
    else if paymentHash = "" then (s, false)
    else (write s key { rec with payment_hash := some paymentHash }, true)

/-- Someone else's lease, as `release` compares it. -/
def Challenge.heldByOther (rec : Challenge δ μ) (owner : String) : Bool :=
  owner ≠ "" ∧ rec.lease_owner.any fun lease_owner => lease_owner ≠ "" ∧ lease_owner ≠ owner

def release (s : Store δ μ) (nonce : List Char) (owner : String) : Store δ μ × Bool :=
  match find s nonce with
  | none => (s, false)
  | some (key, rec) =>
    if rec.state ≠ .claimed then (s, false)
    else if rec.heldByOther owner then (s, false)
    else (write s key { rec with
      state := .issued, lease_owner := none, lease_until := none, payment_hash := none }, true)

def markUnknown (s : Store δ μ) (nonce : List Char) : Store δ μ :=
  match find s nonce with
  | none => s
  | some (key, rec) => write s key { rec with state := .unknown }

def markSubmitted (s : Store δ μ) (nonce : List Char) : Store δ μ × Bool :=
  match find s nonce with
  | none => (s, false)
  | some (key, rec) =>
    if rec.state ≠ .claimed then (s, false) else (write s key { rec with state := .submitted }, true)

/-- The caller becomes the lease owner, and so passes the owner check of `release`. -/
def revertSubmitted (s : Store δ μ) (nonce : List Char) (owner : String) : Store δ μ × Bool :=
  match find s nonce with
  | none => (s, false)
  | some (key, rec) =>
    if rec.state ≠ .submitted then (s, false)
    else
      let lease_owner := if owner ≠ "" then owner else (rec.lease_owner.filter (· ≠ "")).getD "local"
      release (write s key { rec with state := .claimed, lease_owner := some lease_owner }) nonce owner

/-! ## Runs -/

structure Digits where
  raw : List Char
  isHex : ∀ c ∈ raw, c ∈ "0123456789abcdefABCDEF".toList
  nonempty : raw ≠ []

inductive Spelling
  | raw
  | prefixed
deriving DecidableEq

def Digits.spell (n : Digits) : Spelling → List Char
  | .raw => n.raw
  | .prefixed => '0' :: 'x' :: padStart 64 '0' n.raw

inductive Op (μ : Type)
  | claim (owner : String) (leaseMs : ℤ)
  | get
  | release (owner : String)
  | markSubmitted
  | revertSubmitted (owner : String)
  | noteVerifiedPayment (paymentHash : String)
  | markUnknown
  | markSpent (settlement : Option μ)
  | gc

/-- One operation on the nonce: under which spelling, and when. -/
structure Call (μ : Type) where
  spelling : Spelling
  now : ℤ
  op : Op μ

/-- What a call leaves, and whether it answered yes. -/
def exec (n : Digits) (s : Store δ μ) (c : Call μ) : Store δ μ × Bool :=
  let nonce := n.spell c.spelling
  match c.op with
  | .claim owner leaseMs => ((claim s nonce owner leaseMs c.now).1, (claim s nonce owner leaseMs c.now).2.granted)
  | .get => ((get s nonce c.now).1, (get s nonce c.now).2.isSome)
  | .release owner => release s nonce owner
  | .markSubmitted => markSubmitted s nonce
  | .revertSubmitted owner => revertSubmitted s nonce owner
  | .noteVerifiedPayment paymentHash => noteVerifiedPayment s nonce paymentHash
  | .markUnknown => (markUnknown s nonce, true)
  | .markSpent settlement => (markSpent s nonce settlement, true)
  | .gc => (gc s c.now, true)

/-- The store, with the latest time any call has read. -/
structure World (δ μ : Type) where
  store : Store δ μ
  clock : ℤ

def next (n : Digits) (w : World δ μ) (c : Call μ) : World δ μ := ⟨(exec n w.store c).1, max w.clock c.now⟩

/-- The record stands under one of the nonce's spellings. -/
def Stands (n : Digits) (s : Store δ μ) (p : Challenge δ μ → Prop) : Prop :=
  ∃ spelling rec, s.map.lookup (n.spell spelling) = some rec ∧ p rec

/-- The lease ended before some time a call has read. -/
def Challenge.ranOut (rec : Challenge δ μ) (clock : ℤ) : Prop := ∃ t ∈ rec.lease_until, t < clock

instance (rec : Challenge δ μ) (clock : ℤ) : Decidable (rec.ranOut clock) :=
  inferInstanceAs (Decidable (∃ t ∈ rec.lease_until, t < clock))

/-- The call gives the nonce back in the name of `owner`. -/
def Op.givesBack (owner : String) : Op μ → Prop
  | .release owner' => ownerName owner' = ownerName owner
  | .revertSubmitted owner' => ownerName owner' = ownerName owner
  | _ => False

structure PaysOnce (n : Digits) (w : World δ μ) (calls : List (Call μ)) : Prop where
  /-- A granted claim is the only one until its owner gives the nonce back. -/
  held : ∀ before mid after c d owner leaseMs owner' leaseMs',
    calls = before ++ c :: mid ++ d :: after → c.op = .claim owner leaseMs →
    (exec n (run (next n) w before).store c).2 = true → d.op = .claim owner' leaseMs' →
    (∀ l e r, mid = l ++ e :: r → e.op.givesBack owner →
      (exec n (run (next n) w (before ++ c :: l)).store e).2 = false) →
    (exec n (run (next n) w (before ++ c :: mid)).store d).2 = false
  /-- A spent nonce is never claimed again. -/
  spent : ∀ before mid after c d settlement owner leaseMs,
    calls = before ++ c :: mid ++ d :: after → c.op = .markSpent settlement → d.op = .claim owner leaseMs →
    (exec n (run (next n) w (before ++ c :: mid)).store d).2 = false
  /-- Nor is one whose outcome is unknown. -/
  unknown : ∀ before mid after d owner leaseMs,
    calls = before ++ mid ++ d :: after → d.op = .claim owner leaseMs →
    Stands n (run (next n) w before).store (fun rec => rec.state = .unknown) →
    (exec n (run (next n) w (before ++ mid)).store d).2 = false
  /-- Nor one whose lease ran out while it was claimed or submitted. -/
  lapsed : ∀ before mid after d owner leaseMs,
    calls = before ++ mid ++ d :: after → d.op = .claim owner leaseMs →
    Stands n (run (next n) w before).store (fun rec =>
      (rec.state = .claimed ∨ rec.state = .submitted) ∧ rec.ranOut (run (next n) w before).clock) →
    (exec n (run (next n) w (before ++ mid)).store d).2 = false

/-- **The condition on one call.** A release that finds the nonce claimed, and
    a revert that finds it submitted, come from the lease's owner while the
    lease still runs. A release the owner check refuses is free. -/
def ByHolderInTime (n : Digits) (w : World δ μ) (c : Call μ) : Prop :=
  match c.op with
  | .release owner =>
    ∀ found ∈ find w.store (n.spell c.spelling), found.2.state = .claimed → found.2.heldByOther owner = false →
      found.2.lease_owner = some (ownerName owner) ∧ ¬ found.2.ranOut (max w.clock c.now)
  | .revertSubmitted owner =>
    ∀ found ∈ find w.store (n.spell c.spelling), found.2.state = .submitted →
      found.2.lease_owner = some (ownerName owner) ∧ ¬ found.2.ranOut (max w.clock c.now)
  | _ => True

instance (n : Digits) (w : World δ μ) (c : Call μ) : Decidable (ByHolderInTime n w c) :=
  match c with
  | ⟨spelling, now, .release owner⟩ =>
    inferInstanceAs (Decidable (∀ found ∈ find w.store (n.spell spelling), found.2.state = .claimed →
      found.2.heldByOther owner = false →
        found.2.lease_owner = some (ownerName owner) ∧ ¬ found.2.ranOut (max w.clock now)))
  | ⟨spelling, now, .revertSubmitted owner⟩ =>
    inferInstanceAs (Decidable (∀ found ∈ find w.store (n.spell spelling), found.2.state = .submitted →
      found.2.lease_owner = some (ownerName owner) ∧ ¬ found.2.ranOut (max w.clock now)))
  | ⟨_, _, .claim ..⟩ => isTrue trivial
  | ⟨_, _, .get⟩ => isTrue trivial
  | ⟨_, _, .markSubmitted⟩ => isTrue trivial
  | ⟨_, _, .noteVerifiedPayment _⟩ => isTrue trivial
  | ⟨_, _, .markUnknown⟩ => isTrue trivial
  | ⟨_, _, .markSpent _⟩ => isTrue trivial
  | ⟨_, _, .gc⟩ => isTrue trivial

/-- Every call of the run meets the condition. -/
def HeldRun (n : Digits) (w : World δ μ) : List (Call μ) → Prop
  | [] => True
  | c :: rest => ByHolderInTime n w c ∧ HeldRun n (next n w c) rest

instance decidableHeldRun (n : Digits) (w : World δ μ) : (calls : List (Call μ)) → Decidable (HeldRun n w calls)
  | [] => isTrue trivial
  | c :: rest =>
    have := decidableHeldRun n (next n w c) rest
    inferInstanceAs (Decidable (ByHolderInTime n w c ∧ HeldRun n (next n w c) rest))

variable {c : Call μ} {rec : Challenge δ μ} {after before : List (Call μ)} {nonce : List Char} {spelling : Spelling}
  {owner : String} {w : World δ μ} {leaseMs : ℤ}

theorem HeldRun.meets {n : Digits} (h : HeldRun n w (before ++ c :: after)) :
    ByHolderInTime n (run (next n) w before) c := by
  induction before generalizing w with
  | nil =>
    exact h.1
  | cons b before ih =>
    exact ih h.2

/-! ## Spellings -/

/-- The keys any operation on the nonce can look under. -/
def Digits.keys (n : Digits) : List (List Char) :=
  [n.raw, '0' :: 'x' :: padStart 64 '0' n.raw, padStart 64 '0' n.raw]

private theorem hex_not_trimmed : ∀ c ∈ 'x' :: "0123456789abcdefABCDEF".toList, isTrimmed c = false := by
  have hall : ('x' :: "0123456789abcdefABCDEF".toList).all (fun c => !isTrimmed c) = true := by decide +kernel
  intro c hc
  simpa using List.all_eq_true.1 hall c hc

theorem Digits.not_trimmed (n : Digits) {c : Char} (h : c ∈ padStart 64 '0' n.raw) : isTrimmed c = false := by
  unfold padStart at h
  rcases List.mem_append.1 h with h | h
  · rw [List.eq_of_mem_replicate h]
    rfl
  · exact hex_not_trimmed c (List.mem_cons_of_mem _ (n.isHex c h))

theorem Digits.variants_raw (n : Digits) :
    nonceVariants (n.spell .raw) = [n.raw, '0' :: 'x' :: padStart 64 '0' n.raw] := by
  have htrim : trim n.raw = n.raw := trim_eq_self fun c hc => hex_not_trimmed c (List.mem_cons_of_mem _ (n.isHex c hc))
  have htake : n.raw.take 2 ≠ ['0', 'x'] := by
    intro htake
    have hx : 'x' ∈ n.raw := List.mem_of_mem_take (by rw [htake]; simp)
    exact absurd (n.isHex 'x' hx) (by decide +kernel)
  unfold nonceVariants Digits.spell
  dsimp only
  rw [if_neg n.nonempty, htrim, if_neg htake]

theorem Digits.variants_prefixed (n : Digits) :
    nonceVariants (n.spell .prefixed) = ['0' :: 'x' :: padStart 64 '0' n.raw, padStart 64 '0' n.raw] := by
  have htrim : trim ('0' :: 'x' :: padStart 64 '0' n.raw) = '0' :: 'x' :: padStart 64 '0' n.raw := by
    refine trim_eq_self fun c hc => ?_
    simp only [List.mem_cons] at hc
    rcases hc with rfl | rfl | hc
    · rfl
    · rfl
    · exact n.not_trimmed hc
  unfold nonceVariants Digits.spell
  dsimp only
  have htake : List.take 2 ('0' :: 'x' :: padStart 64 '0' n.raw) = ['0', 'x'] := rfl
  rw [if_neg (by simp), htrim, if_pos htake]
  rfl

theorem Digits.variants_subset (n : Digits) {key : List Char} (h : key ∈ nonceVariants (n.spell spelling)) :
    key ∈ n.keys := by
  cases spelling with
  | raw =>
    rw [n.variants_raw] at h
    simp only [List.mem_cons, List.not_mem_nil, or_false] at h
    rcases h with rfl | rfl <;> simp [Digits.keys]
  | prefixed =>
    rw [n.variants_prefixed] at h
    simp only [List.mem_cons, List.not_mem_nil, or_false] at h
    rcases h with rfl | rfl <;> simp [Digits.keys]

theorem Digits.prefixed_mem (n : Digits) (spelling : Spelling) :
    n.spell .prefixed ∈ nonceVariants (n.spell spelling) := by
  cases spelling with
  | raw =>
    rw [n.variants_raw]
    simp [Digits.spell]
  | prefixed =>
    rw [n.variants_prefixed]
    simp [Digits.spell]

theorem Digits.spell_mem_keys (n : Digits) (spelling : Spelling) : n.spell spelling ∈ n.keys := by
  cases spelling <;> simp [Digits.keys, Digits.spell]

theorem Digits.spell_ne_nil (n : Digits) (spelling : Spelling) : n.spell spelling ≠ [] := by
  cases spelling with
  | raw => exact n.nonempty
  | prefixed => simp [Digits.spell]

/-! ## One record -/

theorem find_mem {s : Store δ μ} {key : List Char} (h : find s nonce = some (key, rec)) :
    key ∈ nonceVariants nonce ∧ s.map.lookup key = some rec := by
  unfold find at h
  obtain ⟨key', hmem, hkey⟩ := List.exists_of_findSome?_eq_some h
  obtain ⟨rec', hrec, heq⟩ := Option.map_eq_some_iff.1 hkey
  cases heq
  exact ⟨hmem, hrec⟩

@[simp] theorem lookup_write (s : Store δ μ) (key key' : List Char) (rec : Challenge δ μ) :
    (write s key rec).map.lookup key' = if key' = key then some rec else s.map.lookup key' :=
  lookup_set s.map key key' rec

/-- A record written where one was found is found there again. -/
theorem find_write {s : Store δ μ} {key : List Char} (h : find s nonce = some (key, rec)) (rec' : Challenge δ μ) :
    find (write s key rec') nonce = some (key, rec') := by
  unfold find at h ⊢
  generalize nonceVariants nonce = keys at h ⊢
  induction keys with
  | nil =>
    simp at h
  | cons first rest ih =>
    rw [List.findSome?_cons] at h ⊢
    by_cases hfirst : first = key
    · subst hfirst
      simp
    · rw [lookup_write, if_neg hfirst]
      cases hlook : s.map.lookup first with
      | none =>
        rw [hlook] at h
        exact ih h
      | some other =>
        rw [hlook] at h
        simp only [Option.map_some, Option.some.injEq, Prod.mk.injEq] at h
        exact absurd h.1 hfirst

/-- Of the nonce's keys, only `key` can have a record. -/
def Alone (n : Digits) (key : List Char) (s : Store δ μ) : Prop :=
  ∀ key' ∈ n.keys, key' ≠ key → s.map.lookup key' = none

theorem Alone.find {n : Digits} {key : List Char} {s : Store δ μ} (h : Alone n key s)
    {found : List Char × Challenge δ μ} (hfind : find s (n.spell spelling) = some found) :
    found.1 = key ∧ s.map.lookup key = some found.2 := by
  obtain ⟨key', rec⟩ := found
  obtain ⟨hmem, hlook⟩ := find_mem hfind
  by_cases hkey : key' = key
  · subst hkey
    exact ⟨rfl, hlook⟩
  · rw [h key' (n.variants_subset hmem) hkey] at hlook
    cases hlook

theorem release_granted {s : Store δ μ} (h : (release s nonce owner).2 = true) :
    ∃ found, find s nonce = some found ∧ found.2.state = .claimed ∧ found.2.heldByOther owner = false := by
  unfold release at h
  cases hfind : find s nonce with
  | none =>
    rw [hfind] at h
    simp at h
  | some found =>
    rw [hfind] at h
    dsimp only at h
    split_ifs at h with hstate hother
    exact ⟨found, rfl, by simpa using hstate, by simpa using hother⟩

/-- A revert answers yes exactly when it finds the nonce submitted, whoever calls it. -/
theorem revertSubmitted_granted_iff {s : Store δ μ} {nonce : List Char} {owner : String} :
    (revertSubmitted s nonce owner).2 = true ↔ ∃ found, find s nonce = some found ∧ found.2.state = .submitted := by
  unfold revertSubmitted
  cases hfind : find s nonce with
  | none => simp
  | some found =>
    dsimp only
    by_cases hstate : found.2.state = .submitted
    · rw [if_neg (by simp [hstate])]
      refine iff_of_true ?_ ⟨found, rfl, hstate⟩
      unfold release
      rw [find_write hfind]
      dsimp only
      rw [if_neg (by simp), if_neg]
      by_cases howner : owner = "" <;> simp [Challenge.heldByOther, howner]
    · rw [if_pos hstate]
      simp [hstate]

theorem revertSubmitted_refused {s : Store δ μ} (h : (revertSubmitted s nonce owner).2 = false) :
    (revertSubmitted s nonce owner).1 = s := by
  have hnot : ¬ ∃ found, find s nonce = some found ∧ found.2.state = .submitted := by
    rw [← @revertSubmitted_granted_iff _ _ _ _ owner, h]
    simp
  unfold revertSubmitted
  cases hfind : find s nonce with
  | none => rfl
  | some found =>
    dsimp only
    rw [if_pos fun hstate => hnot ⟨found, hfind, hstate⟩]

/-! ## What every operation keeps -/

theorem spendKey_lookup (settlement : Option μ) (s : Store δ μ) (key key' : List Char) :
    (spendKey settlement s key).map.lookup key' = if key' = key then
      (s.map.lookup key).map fun rec => { rec with state := .spent, settlement := settlement.or rec.settlement }
    else s.map.lookup key' := by
  unfold spendKey
  cases hlook : s.map.lookup key with
  | none =>
    split_ifs with hkey
    · rw [hkey]
      exact hlook
    · rfl
  | some rec =>
    dsimp only
    rw [lookup_set]
    rfl

/-- A record after `markSpent`: as it was, or spent. -/
theorem markSpent_lookup (s : Store δ μ) (nonce : List Char) (settlement : Option μ) (key : List Char) :
    (markSpent s nonce settlement).map.lookup key = s.map.lookup key
      ∨ ∃ rec, s.map.lookup key ≠ none ∧ (markSpent s nonce settlement).map.lookup key = some rec
        ∧ rec.state = .spent := by
  unfold markSpent
  split_ifs
  · exact Or.inl rfl
  · generalize hs : ({ s with spent := insert nonce s.spent } : Store δ μ) = s₀
    have hmap : s.map = s₀.map := by rw [← hs]
    rw [hmap]
    clear hs hmap
    induction nonceVariants nonce generalizing s₀ with
    | nil =>
      exact Or.inl rfl
    | cons first rest ih =>
      rw [List.foldl_cons]
      have hfirst := spendKey_lookup settlement s₀ first key
      have hrest := ih (spendKey settlement s₀ first)
      by_cases hkey : key = first
      · rw [if_pos hkey, ← hkey] at hfirst
        cases hlook : s₀.map.lookup key with
        | none =>
          rw [hlook, Option.map_none] at hfirst
          rw [← hkey, hfirst] at hrest
          rcases hrest with hsame | ⟨rec, hne, -⟩
          · exact Or.inl (by rw [← hkey]; exact hsame)
          · exact absurd rfl hne
        | some rec =>
          rw [hlook, Option.map_some] at hfirst
          refine Or.inr ?_
          rcases hrest with hsame | ⟨rec', -, hspent⟩
          · rw [← hkey] at hsame ⊢
            exact ⟨_, by simp, by rw [hsame, hfirst], rfl⟩
          · exact ⟨rec', by simp, hspent⟩
      · rw [if_neg hkey] at hfirst
        rw [hfirst] at hrest
        exact hrest

theorem spendKey_spent (settlement : Option μ) (keys : List (List Char)) (s : Store δ μ) {key : List Char}
    (h : key ∈ s.spent ∨ key ∈ keys) : key ∈ (keys.foldl (spendKey settlement) s).spent := by
  induction keys generalizing s with
  | nil =>
    simpa using h
  | cons first rest ih =>
    rw [List.foldl_cons]
    apply ih
    rcases h with h | h
    · exact Or.inl (Finset.mem_insert_of_mem h)
    · rcases List.mem_cons.1 h with rfl | h
      · exact Or.inl (Finset.mem_insert_self _ _)
      · exact Or.inr h

/-- A record no claim can take: settled, unknown, or under a lease `q` speaks of. -/
def Challenge.Shut (q : Option String → Option ℤ → Prop) (rec : Challenge δ μ) : Prop :=
  rec.state = .unknown ∨ rec.state = .spent
    ∨ ((rec.state = .claimed ∨ rec.state = .submitted) ∧ q rec.lease_owner rec.lease_until)

/-- The call is of the two kinds that can open a claimed nonce again. -/
def Op.isGiveBack : Op μ → Prop
  | .release _ => True
  | .revertSubmitted _ => True
  | _ => False

/-- What a call can do to one record: keep it, drop it where it is open, or write one that is as shut as it was,
    unless the call gives the nonce back. -/
inductive Turns (gives : Prop) : Option (Challenge δ μ) → Option (Challenge δ μ) → Prop where
  | same (before : Option (Challenge δ μ)) : Turns gives before before
  | dropped {rec : Challenge δ μ} (hopen : ∀ q, ¬ rec.Shut q) : Turns gives (some rec) none
  | wrote {rec rec' : Challenge δ μ} (hshut : ¬ gives → ∀ q, rec.Shut q → rec'.Shut q) :
      Turns gives (some rec) (some rec')

structure Effect (gives : Prop) (s s' : Store δ μ) : Prop where
  spent : s.spent ⊆ s'.spent
  turns : ∀ key, Turns gives (s.map.lookup key) (s'.map.lookup key)

theorem Effect.refl (gives : Prop) (s : Store δ μ) : Effect gives s s := ⟨Finset.Subset.refl _, fun _ => .same _⟩

section Step

variable {gives : Prop} {s : Store δ μ} {found : List Char × Challenge δ μ}

theorem effect_write {rec : Challenge δ μ} (hfind : find s nonce = some found)
    (hshut : ¬ gives → ∀ q, found.2.Shut q → rec.Shut q) : Effect gives s (write s found.1 rec) := by
  refine ⟨Finset.Subset.refl _, fun key => ?_⟩
  rw [lookup_write]
  split_ifs with hkey
  · rw [hkey, (find_mem hfind).2]
    exact .wrote hshut
  · exact .same _

theorem effect_erase (hfind : find s nonce = some found) (hopen : ∀ q, ¬ found.2.Shut q) :
    Effect gives s { s with map := AList.erase found.1 s.map } := by
  refine ⟨Finset.Subset.refl _, fun key => ?_⟩
  dsimp only
  rw [lookup_erase_eq]
  split_ifs with hkey
  · rw [hkey, (find_mem hfind).2]
    exact .dropped hopen
  · exact .same _

theorem not_shut {rec : Challenge δ μ} (h : rec.state = .issued ∨ rec.state = .released)
    (q : Option String → Option ℤ → Prop) : ¬ rec.Shut q := by
  unfold Challenge.Shut
  rcases h with h | h <;> simp [h]

/-- **STEP**: what a call does to the store. -/
theorem exec_effect (n : Digits) (s : Store δ μ) (c : Call μ) :
    Effect (c.op.isGiveBack ∧ (exec n s c).2 = true) s (exec n s c).1 := by
  obtain ⟨spelling, now, op⟩ := c
  -- every call goes by the state of the row it finds
  cases op with
  | claim owner leaseMs =>
    dsimp only [exec, claim]
    split_ifs
    · exact .refl _ s
    · cases hfind : find s (n.spell spelling) with
      | none => exact .refl _ s
      | some found =>
        dsimp only
        cases hstate : found.2.state <;> dsimp only
        case issued =>
          split_ifs
          · exact effect_erase hfind (not_shut (.inl hstate))
          · exact effect_write hfind fun _ q h => absurd h (not_shut (.inl hstate) q)
        case claimed =>
          split_ifs
          · exact effect_write hfind fun _ _ _ => Or.inl rfl
          · exact .refl _ s
        all_goals exact .refl _ s
  | get =>
    dsimp only [exec, get]
    cases hfind : find s (n.spell spelling) with
    | none => exact .refl _ s
    | some found =>
      dsimp only
      cases hstate : found.2.state <;> dsimp only
      case issued =>
        split_ifs
        · exact effect_erase hfind (not_shut (.inl hstate))
        · exact .refl _ s
      case released =>
        split_ifs
        · exact effect_erase hfind (not_shut (.inr hstate))
        · exact .refl _ s
      case claimed =>
        split_ifs
        · exact effect_write hfind fun _ _ _ => Or.inl rfl
        · exact .refl _ s
      all_goals exact .refl _ s
  | release owner =>
    dsimp only [exec, release]
    cases hfind : find s (n.spell spelling) with
    | none => exact .refl _ s
    | some found =>
      dsimp only
      split_ifs
      · exact .refl _ s
      · exact .refl _ s
      · exact effect_write hfind fun hno => absurd ⟨trivial, rfl⟩ hno
  | markSubmitted =>
    dsimp only [exec, markSubmitted]
    cases hfind : find s (n.spell spelling) with
    | none => exact .refl _ s
    | some found =>
      dsimp only
      split_ifs with hstate
      · exact .refl _ s
      · refine effect_write hfind fun _ q h => ?_
        simp only [Challenge.Shut, not_not.mp hstate, reduceCtorEq, false_or, true_or, true_and] at h
        exact Or.inr (Or.inr ⟨Or.inr rfl, h⟩)
  | revertSubmitted owner =>
    dsimp only [exec]
    cases hyes : (revertSubmitted s (n.spell spelling) owner).2 with
    | false =>
      rw [revertSubmitted_refused hyes]
      exact .refl _ s
    | true =>
      obtain ⟨found, hfind, hstate⟩ := revertSubmitted_granted_iff.1 hyes
      unfold revertSubmitted at hyes ⊢
      rw [hfind] at hyes ⊢
      dsimp only at hyes ⊢
      rw [if_neg (not_not.mpr hstate)] at hyes ⊢
      unfold release at hyes ⊢
      rw [find_write hfind] at hyes ⊢
      dsimp only at hyes ⊢
      split_ifs at hyes ⊢
      all_goals
        refine ⟨Finset.Subset.refl _, fun key => ?_⟩
        rw [lookup_write, lookup_write]
        split_ifs with hkey
        · rw [hkey, (find_mem hfind).2]
          exact .wrote fun hno => absurd ⟨trivial, rfl⟩ hno
        · exact .same _
  | noteVerifiedPayment paymentHash =>
    dsimp only [exec, noteVerifiedPayment]
    cases hfind : find s (n.spell spelling) with
    | none => exact .refl _ s
    | some found =>
      dsimp only
      split_ifs
      · exact .refl _ s
      · exact .refl _ s
      · exact effect_write hfind fun _ _ h => h
  | markUnknown =>
    dsimp only [exec, markUnknown]
    cases hfind : find s (n.spell spelling) with
    | none => exact .refl _ s
    | some found => exact effect_write hfind fun _ _ _ => Or.inl rfl
  | markSpent settlement =>
    refine ⟨fun key h => ?_, fun key => ?_⟩
    · dsimp only [exec, markSpent]
      rw [if_neg (n.spell_ne_nil spelling)]
      exact spendKey_spent settlement _ _ (Or.inl (Finset.mem_insert_of_mem h))
    · rcases markSpent_lookup s (n.spell spelling) settlement key with hsame | ⟨rec', hne, hrec, hspent⟩
      · exact hsame ▸ .same _
      · obtain ⟨rec, hlook⟩ := Option.ne_none_iff_exists'.mp hne
        dsimp only [exec]
        rw [hlook, hrec]
        exact .wrote fun _ _ _ => Or.inr (Or.inl hspent)
  | gc =>
    refine ⟨Finset.Subset.refl _, fun key => ?_⟩
    dsimp only [exec, gc]
    rw [lookup_keep]
    cases hlook : s.map.lookup key with
    | none => exact .same _
    | some rec =>
      rw [Option.filter_some]
      split_ifs with hkept
      · exact .same _
      · refine .dropped fun q h => hkept ?_
        unfold Challenge.Shut at h
        rcases h with h | h | ⟨h | h, -⟩ <;> simp [h]

end Step

/-- No operation here creates a record. -/
theorem exec_lookup_none (n : Digits) {s : Store δ μ} (c : Call μ) {key : List Char} (h : s.map.lookup key = none) :
    (exec n s c).1.map.lookup key = none := by
  have hturns := (exec_effect n s c).turns key
  rw [h] at hturns
  generalize (exec n s c).1.map.lookup key = after at hturns ⊢
  cases hturns
  rfl

theorem exec_alone {n : Digits} {key : List Char} {s : Store δ μ} (c : Call μ) (h : Alone n key s) :
    Alone n key (exec n s c).1 :=
  fun key' hmem hne => exec_lookup_none n c (h key' hmem hne)

/-! ## Locked records -/

/-- The nonce's record is shut. -/
def Locked (key : List Char) (q : Option String → Option ℤ → Prop) (s : Store δ μ) : Prop :=
  ∃ rec, s.map.lookup key = some rec ∧ rec.Shut q

variable {n : Digits} {key : List Char} {s : Store δ μ} {q : Option String → Option ℤ → Prop}

theorem Locked.refuses (h : Locked key q s) (halone : Alone n key s) (spelling : Spelling) (owner : String)
    (leaseMs now : ℤ) : (claim s (n.spell spelling) owner leaseMs now).2.granted = false := by
  obtain ⟨rec, hlook, hshut⟩ := h
  unfold claim
  split_ifs
  · rfl
  · cases hfind : find s (n.spell spelling) with
    | none => rfl
    | some found =>
      obtain ⟨-, hsame⟩ := halone.find hfind
      rw [hlook, Option.some.injEq] at hsame
      subst hsame
      unfold Challenge.Shut at hshut
      dsimp only
      cases hstate : found.2.state <;> dsimp only
      case issued => simp [hstate] at hshut
      case claimed => split_ifs <;> rfl
      case submitted => split_ifs <;> rfl
      all_goals rfl

/-- What is locked stays locked through every call that does not give the nonce back. -/
theorem next_locked (h : Locked key q s) (c : Call μ) (hkept : c.op.isGiveBack → (exec n s c).2 = false) :
    Locked key q (exec n s c).1 := by
  obtain ⟨rec, hlook, hshut⟩ := h
  have hturns := (exec_effect n s c).turns key
  rw [hlook] at hturns
  generalize hafter : (exec n s c).1.map.lookup key = after at hturns
  cases hturns with
  | same => exact ⟨rec, hafter, hshut⟩
  | dropped hopen => exact absurd hshut (hopen q)
  | wrote hkeeps =>
    refine ⟨_, hafter, hkeeps (fun hgives => ?_) q hshut⟩
    rw [hkept hgives.1] at hgives
    cases hgives.2

theorem run_locked {calls : List (Call μ)} (h : Locked key q w.store) (halone : Alone n key w.store)
    (hkept : ∀ l c r, calls = l ++ c :: r → Locked key q (run (next n) w l).store → c.op.isGiveBack →
      (exec n (run (next n) w l).store c).2 = false) :
    Locked key q (run (next n) w calls).store ∧ Alone n key (run (next n) w calls).store := by
  refine run_keeps (fun w : World δ μ => Locked key q w.store ∧ Alone n key w.store) ⟨h, halone⟩ ?_
  intro l c r hcalls ⟨hlocked, halone⟩
  exact ⟨next_locked hlocked c (hkept l c r hcalls hlocked), exec_alone c halone⟩

/-- A give-back that answers yes and meets the condition: the lease is its caller's and still runs. -/
theorem giveBack_byHolder (halone : Alone n key w.store) (hcond : ByHolderInTime n w c) (hgive : c.op.isGiveBack)
    (hyes : (exec n w.store c).2 = true) :
    ∃ rec owner, w.store.map.lookup key = some rec ∧ (rec.state = .claimed ∨ rec.state = .submitted)
      ∧ rec.lease_owner = some (ownerName owner) ∧ ¬ rec.ranOut (max w.clock c.now)
      ∧ ∀ owner', ownerName owner = ownerName owner' → c.op.givesBack owner' := by
  obtain ⟨spelling, now, op⟩ := c
  cases op with
  | release owner =>
    obtain ⟨found, hfind, hstate, hother⟩ := release_granted hyes
    obtain ⟨howner, hruns⟩ := hcond found hfind hstate hother
    exact ⟨found.2, owner, (halone.find hfind).2, Or.inl hstate, howner, hruns, fun _ h => h⟩
  | revertSubmitted owner =>
    obtain ⟨found, hfind, hstate⟩ := revertSubmitted_granted_iff.1 hyes
    obtain ⟨howner, hruns⟩ := hcond found hfind hstate
    exact ⟨found.2, owner, (halone.find hfind).2, Or.inr hstate, howner, hruns, fun _ h => h⟩
  | claim | get | markSubmitted | noteVerifiedPayment | markUnknown | markSpent | gc => exact hgive.elim

theorem claim_granted {now : ℤ} (halone : Alone n key s)
    (h : (claim s (n.spell spelling) owner leaseMs now).2.granted = true) :
    Locked key (fun lease_owner _ => lease_owner = some (ownerName owner))
      (claim s (n.spell spelling) owner leaseMs now).1 := by
  unfold claim at h ⊢
  split_ifs at h ⊢
  · simp [ClaimReply.granted] at h
  · cases hfind : find s (n.spell spelling) with
    | none =>
      rw [hfind] at h
      simp [ClaimReply.granted] at h
    | some found =>
      rw [hfind] at h
      obtain ⟨hkey, -⟩ := halone.find hfind
      dsimp only at h ⊢
      cases hstate : found.2.state <;> rw [hstate] at h <;> dsimp only at h ⊢
      case issued =>
        split_ifs at h ⊢
        · simp [ClaimReply.granted] at h
        · refine ⟨_, by rw [lookup_write, if_pos hkey.symm], Or.inr (Or.inr ⟨Or.inl rfl, rfl⟩)⟩
      case submitted => split_ifs at h <;> simp [ClaimReply.granted] at h
      case claimed => split_ifs at h <;> simp [ClaimReply.granted] at h
      all_goals simp [ClaimReply.granted] at h

/-! ## Spent nonces -/

theorem exec_spent (c : Call μ) {key : List Char} (h : key ∈ s.spent) : key ∈ (exec n s c).1.spent :=
  (exec_effect n s c).spent h

theorem markSpent_spent (n : Digits) (s : Store δ μ) (spelling : Spelling) (settlement : Option μ) :
    n.spell .prefixed ∈ (markSpent s (n.spell spelling) settlement).spent := by
  unfold markSpent
  rw [if_neg (n.spell_ne_nil spelling)]
  exact spendKey_spent settlement _ _ (Or.inr (n.prefixed_mem spelling))

theorem claim_of_spent (h : n.spell .prefixed ∈ s.spent) (spelling : Spelling) (owner : String) (leaseMs now : ℤ) :
    (claim s (n.spell spelling) owner leaseMs now).2.granted = false := by
  have hspent : isSpent s (n.spell spelling) = true := by
    unfold isSpent
    rw [List.any_eq_true]
    exact ⟨_, n.prefixed_mem spelling, by simp [h]⟩
  unfold claim
  rw [if_pos hspent]
  rfl

/-! ## Whole runs -/

theorem run_alone (halone : Alone n key w.store) (calls : List (Call μ)) : Alone n key (run (next n) w calls).store :=
  run_invariant (fun w : World δ μ => Alone n key w.store) calls halone fun _ c h => exec_alone c h

theorem clock_le_run (w : World δ μ) (calls : List (Call μ)) : w.clock ≤ (run (next n) w calls).clock :=
  run_invariant (fun w' : World δ μ => w.clock ≤ w'.clock) calls (Int.le_refl _) fun _ _ h =>
    h.trans (Int.le_max_left ..)

theorem run_spent {key : List Char} (h : key ∈ w.store.spent) (calls : List (Call μ)) :
    key ∈ (run (next n) w calls).store.spent :=
  run_invariant (fun w : World δ μ => key ∈ w.store.spent) calls h fun _ c h => exec_spent c h

theorem Stands.locked {p : Challenge δ μ → Prop} (h : Stands n s p) (halone : Alone n key s)
    (hshut : ∀ rec, p rec → rec.Shut q) : Locked key q s := by
  obtain ⟨spelling, rec, hlook, hp⟩ := h
  by_cases hkey : n.spell spelling = key
  · subst hkey
    exact ⟨rec, hlook, hshut rec hp⟩
  · rw [halone _ (n.spell_mem_keys spelling) hkey] at hlook
    cases hlook

theorem run_mid (w : World δ μ) (before : List (Call μ)) (c : Call μ) (mid : List (Call μ)) :
    run (next n) w (before ++ c :: mid) = run (next n) (next n (run (next n) w before) c) mid := by
  rw [run_append, run_cons]

theorem Challenge.Shut.lease (h : rec.Shut q) (hstate : rec.state = .claimed ∨ rec.state = .submitted) :
    q rec.lease_owner rec.lease_until := by
  rcases h with hother | hother | ⟨-, hlease⟩
  · rw [hother] at hstate
    simp at hstate
  · rw [hother] at hstate
    simp at hstate
  · exact hlease

/-- Once the record is locked, later claims are refused, provided the lock's
    lease is not one a give-back that meets the condition can end. -/
theorem claim_refused_of_locked {mid : List (Call μ)} {d : Call μ} (halone : Alone n key w.store)
    (hheld : HeldRun n w (before ++ mid ++ d :: after)) (hd : d.op = .claim owner leaseMs)
    (hlocked : Locked key q (run (next n) w before).store)
    (hopen : ∀ l e r holder lease_until, mid = l ++ e :: r → q (some (ownerName holder)) lease_until →
      (¬ ∃ t, lease_until = some t ∧ t < max (run (next n) w (before ++ l)).clock e.now) →
      (∀ owner', ownerName holder = ownerName owner' → e.op.givesBack owner') →
      (exec n (run (next n) w (before ++ l)).store e).2 = false) :
    (exec n (run (next n) w (before ++ mid)).store d).2 = false := by
  have hkept : ∀ l e r, mid = l ++ e :: r → Locked key q (run (next n) (run (next n) w before) l).store →
      e.op.isGiveBack → (exec n (run (next n) (run (next n) w before) l).store e).2 = false := by
    rintro l e r hmid ⟨rec, hlook, hshut⟩ hgive
    rw [← run_append] at hlook ⊢
    by_contra hyes
    have hmeets : HeldRun n w ((before ++ l) ++ e :: (r ++ d :: after)) := by
      rw [hmid] at hheld
      simpa using hheld
    obtain ⟨rec', holder, hlook', hstate, hlease, hruns, hnames⟩ :=
      giveBack_byHolder (run_alone halone _) hmeets.meets hgive (by simpa using hyes)
    rw [hlook, Option.some.injEq] at hlook'
    subst hlook'
    have hq := hshut.lease hstate
    rw [hlease] at hq
    exact hyes (hopen l e r holder rec.lease_until hmid hq hruns hnames)
  obtain ⟨hend, hend'⟩ := run_locked hlocked (run_alone halone before) hkept
  rw [← run_append] at hend hend'
  unfold exec
  rw [hd]
  exact hend.refuses hend' d.spelling owner leaseMs d.now

/-- **A NONCE PAYS ONCE** when every give-back comes from the lease's owner in time. -/
theorem paysOnce_of_held (n : Digits) (s : Store δ μ) (hnew : ∀ key ∈ n.keys, s.map.lookup key = none)
    (spelling : Spelling) (data : PutData δ μ) (now : ℤ) (calls : List (Call μ))
    (hheld : HeldRun n ⟨put s (n.spell spelling) data now, now⟩ calls) :
    PaysOnce n ⟨put s (n.spell spelling) data now, now⟩ calls := by
  have halone : Alone n (n.spell spelling) (put s (n.spell spelling) data now) := by
    intro key hmem hne
    unfold put
    rw [lookup_write, if_neg hne]
    unfold gc
    rw [lookup_keep, hnew key hmem]
    rfl
  generalize hw : (⟨put s (n.spell spelling) data now, now⟩ : World δ μ) = w at hheld ⊢
  have halone : Alone n (n.spell spelling) w.store := by rwa [← hw]
  generalize n.spell spelling = key at halone
  constructor
  · intro before mid after c d owner leaseMs owner' leaseMs' hcalls hc hgranted hd hback
    have hlocked : Locked key (fun lease_owner _ => lease_owner = some (ownerName owner))
        (run (next n) w (before ++ [c])).store := by
      rw [run_concat]
      obtain ⟨spelling', now', op⟩ := c
      dsimp only at hc
      subst hc
      exact claim_granted (run_alone halone before) hgranted
    have hheld' : HeldRun n w ((before ++ [c]) ++ mid ++ d :: after) := by
      rw [hcalls] at hheld
      simpa using hheld
    have href := claim_refused_of_locked halone hheld' hd hlocked ?_
    · rwa [List.append_assoc, List.singleton_append] at href
    · intro l e r holder lease_until hmid hmine _ hnames
      rw [List.append_assoc, List.singleton_append]
      exact hback l e r hmid (hnames owner (Option.some.inj hmine))
  · intro before mid after c d settlement owner leaseMs hcalls hc hd
    have hspent : n.spell .prefixed ∈ (run (next n) w (before ++ c :: mid)).store.spent := by
      rw [run_mid]
      refine run_spent ?_ mid
      unfold next exec
      rw [hc]
      exact markSpent_spent n _ c.spelling settlement
    unfold exec
    rw [hd]
    exact claim_of_spent hspent d.spelling owner leaseMs d.now
  · intro before mid after d owner leaseMs hcalls hd hstands
    rw [hcalls] at hheld
    refine claim_refused_of_locked (q := fun _ _ => False) halone hheld hd
      (hstands.locked (run_alone halone before) fun rec hrec => Or.inl hrec) ?_
    intro l e r holder lease_until _ hnever
    exact hnever.elim
  · intro before mid after d owner leaseMs hcalls hd hstands
    rw [hcalls] at hheld
    refine claim_refused_of_locked
      (q := fun _ lease_until => ∃ t, lease_until = some t ∧ t < (run (next n) w before).clock) halone hheld hd
      (hstands.locked (run_alone halone before) fun rec hrec => Or.inr (Or.inr hrec)) ?_
    rintro l e r holder lease_until - ⟨t, hlease, hlt⟩ hruns
    have hclock := clock_le_run (n := n) (run (next n) w before) l
    rw [← run_append] at hclock
    exact absurd ⟨t, hlease, by omega⟩ hruns

/-! ## Two runs -/

/-- An issued nonce, by its 64 digits. -/
def sampleNonce : Digits where
  raw := List.replicate 64 'a'
  isHex := by
    intro c hc
    rw [List.eq_of_mem_replicate hc]
    simp
  nonempty := by decide

def sampleData : PutData Unit Unit where
  expiresAt := some 120000
  state := none
  lease_owner := none
  lease_until := none
  payment_hash := none
  settlement := none
  data := ()

def sampleStore : Store Unit Unit := ⟨120000, ∅, ∅⟩

/-- The issued nonce in an otherwise empty store. -/
def sampleWorld : World Unit Unit := ⟨put sampleStore (sampleNonce.spell .prefixed) sampleData 0, 0⟩

/-- A failed attempt gives the nonce back, and the next one settles it. -/
def settledCalls : List (Call Unit) :=
  [ ⟨.prefixed, 10, .claim "A" 60000⟩, ⟨.raw, 20, .markSubmitted⟩, ⟨.prefixed, 30, .revertSubmitted "A"⟩,
    ⟨.raw, 40, .claim "B" 60000⟩, ⟨.prefixed, 50, .release "A"⟩, ⟨.prefixed, 60, .markSpent none⟩ ]

theorem paysOnce_of_held_sample : PaysOnce sampleNonce sampleWorld settledCalls :=
  paysOnce_of_held sampleNonce sampleStore (by decide +kernel) .prefixed sampleData 0 settledCalls (by decide +kernel)

/-- A release after the lease ran out, and the claim that follows it. -/
def lapsedCalls : List (Call Unit) :=
  [ ⟨.prefixed, 10, .claim "A" 60000⟩, ⟨.prefixed, 70000, .noteVerifiedPayment "h"⟩,
    ⟨.prefixed, 70001, .release "A"⟩, ⟨.prefixed, 70002, .claim "B" 60000⟩ ]

/-- A revert in another caller's name, and the claim that follows it. -/
def foreignCalls : List (Call Unit) :=
  [ ⟨.prefixed, 10, .claim "A" 60000⟩, ⟨.prefixed, 20, .markSubmitted⟩,
    ⟨.prefixed, 30, .revertSubmitted "B"⟩, ⟨.prefixed, 40, .claim "C" 60000⟩ ]

/-- **TWO WAYS TO CLAIM TWICE**: an expired lease is released after all, and a
    submitted nonce is given back by a caller that never held it. -/
theorem lapsed_and_foreign_give_backs :
    ¬ PaysOnce sampleNonce sampleWorld lapsedCalls ∧ ¬ PaysOnce sampleNonce sampleWorld foreignCalls := by
  constructor
  · intro h
    have hrefused := h.lapsed [lapsedCalls[0], lapsedCalls[1]] [lapsedCalls[2]] [] lapsedCalls[3] "B" 60000 rfl rfl
      ⟨.prefixed, _, rfl, Or.inl rfl, 60010, rfl, by decide +kernel⟩
    exact absurd hrefused (by decide +kernel)
  · intro h
    have hrefused := h.held [] [foreignCalls[1], foreignCalls[2]] [] foreignCalls[0] foreignCalls[3] "A" 60000 "C" 60000
      rfl rfl (by decide +kernel) rfl ?_
    · exact absurd hrefused (by decide +kernel)
    · intro l e r hmid hback
      -- the only give-back in between is in the name of `B`
      have hmem : e ∈ [foreignCalls[1], foreignCalls[2]] := by simp [hmid]
      rw [List.mem_cons, List.mem_singleton] at hmem
      rcases hmem with rfl | rfl
      · exact hback.elim
      · have hnames : ownerName "B" = ownerName "A" := hback
        exact absurd hnames (by decide)

end ChallengeNonce
