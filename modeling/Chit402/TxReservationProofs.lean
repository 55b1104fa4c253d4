import Mathlib.Data.Finset.Insert
import Chit402.OrderedMapProofs
import Chit402.TraceProofs

/-! # Transaction reservations of the challenge store

    `ChallengeStore` keeps one lease by transaction key and one by
    authorization key, each naming the other, beside the sets of spent keys.
    A lease is never swept: it stops counting when its time is over, and its
    row stays.  `markTxSpent` and `releaseTx` follow the authorization key of
    the row they find, live or not, so a run keeps its reservations exclusive
    when those rows still name the reservation they were written with. -/

namespace TxReservation

open OrderedMap Trace

variable {φ : Type}

/-! ## The store -/

/-- A row of `txReserved`. The empty `authKey` is no key. -/
structure TxLease where
  owner : String
  expires : ℤ
  authKey : String
deriving DecidableEq

/-- A row of `authReserved`. -/
structure AuthLease where
  owner : String
  expires : ℤ
  key : String
deriving DecidableEq

structure Store (φ : Type) where
  authSpent : OrderedMap String (Option String)
  txSpent : Finset String
  txFacts : OrderedMap String φ
  txReserved : OrderedMap String TxLease
  authReserved : OrderedMap String AuthLease

def emptyStore : Store φ := ⟨∅, ∅, ∅, ∅, ∅⟩

def isAuthSpent (s : Store φ) (key : String) : Bool := key ≠ "" ∧ (s.authSpent.lookup key).isSome

def isTxSpent (s : Store φ) (key : String) : Bool := key ≠ "" ∧ key ∈ s.txSpent

def markAuthSpent (s : Store φ) (key ref : String) : Store φ :=
  if key = "" then s
  else { s with
    authSpent := s.authSpent.set key (if ref = "" then none else some ref)
    authReserved := AList.erase key s.authReserved }

/-- The authorization key the row under `key` was written with. -/
def crossKey (s : Store φ) (key : String) : String := ((s.txReserved.lookup key).map TxLease.authKey).getD ""

/-- Drops the cross-referenced authorization row whoever holds it. -/
def markTxSpent (s : Store φ) (key : String) (facts : Option φ) : Store φ :=
  if key = "" then s
  else { s with
    txSpent := insert key s.txSpent
    txReserved := AList.erase key s.txReserved
    authReserved := if crossKey s key = "" then s.authReserved else AList.erase (crossKey s key) s.authReserved
    txFacts := match facts with
      | some facts => s.txFacts.set key facts
      | none => s.txFacts }

/-- One owner's live lease in the way of another's call. -/
def TxLease.blocks (owner : String) (now : ℤ) (held : TxLease) : Bool := now < held.expires ∧ held.owner ≠ owner

def AuthLease.blocks (key owner : String) (now : ℤ) (auth : AuthLease) : Bool :=
  now < auth.expires ∧ (auth.owner ≠ owner ∨ (auth.key ≠ "" ∧ auth.key ≠ key))

/-- When the lease of a `reserveTx` ends. -/
def leaseEnd (leaseMs now : ℤ) : ℤ := now + if 0 < leaseMs then leaseMs else 180000

/-- The two rows a granted reservation writes. -/
def grant (s : Store φ) (key authKey owner : String) (leaseMs now : ℤ) : Store φ :=
  { s with
    txReserved := s.txReserved.set key ⟨owner, leaseEnd leaseMs now, authKey⟩
    authReserved := if authKey = "" then s.authReserved
      else s.authReserved.set authKey ⟨owner, leaseEnd leaseMs now, key⟩ }

/-- False when the key is spent or another owner holds a live lease. -/
def reserveTx (s : Store φ) (key authKey owner : String) (leaseMs now : ℤ) : Store φ × Bool :=
  if key = "" ∨ owner = "" then (s, false)
  else if isTxSpent s key then (s, false)
  else if authKey ≠ "" ∧ isAuthSpent s authKey then (s, false)
  else if (s.txReserved.lookup key).any (TxLease.blocks owner now) then (s, false)
  else if authKey ≠ "" ∧ (s.authReserved.lookup authKey).any (AuthLease.blocks key owner now) then (s, false)
  else (grant s key authKey owner leaseMs now, true)

def releaseTx (s : Store φ) (key authKey owner : String) : Store φ × Bool :=
  match if key = "" then none else s.txReserved.lookup key with
  | none => (s, false)
  | some rec =>
    if owner ≠ "" ∧ rec.owner ≠ owner then (s, false)
    else
      let ak := if authKey = "" then rec.authKey else authKey
      ({ s with
        txReserved := AList.erase key s.txReserved
        authReserved :=
          if ak ≠ "" ∧ (s.authReserved.lookup ak).any (fun auth => owner = "" ∨ auth.owner = owner) then
            AList.erase ak s.authReserved
          else s.authReserved }, ¬ isTxSpent s key)

/-! ## Runs -/

/-- A caller's name. The callers use `<pid>:<nonce>` and `late:<pid>:<id>`. -/
abbrev Owner := { name : String // name ≠ "" }

inductive Op (φ : Type)
  | reserveTx (key authKey : String) (leaseMs : ℤ)
  | releaseTx (key authKey : String)
  | markTxSpent (key : String) (facts : Option φ)
  | markAuthSpent (key ref : String)

/-- One operation, with who calls it and when. -/
structure Call (φ : Type) where
  owner : Owner
  now : ℤ
  op : Op φ

def exec (s : Store φ) (c : Call φ) : Store φ × Bool :=
  match c.op with
  | .reserveTx key authKey leaseMs => reserveTx s key authKey c.owner leaseMs c.now
  | .releaseTx key authKey => releaseTx s key authKey c.owner
  | .markTxSpent key facts => (markTxSpent s key facts, true)
  | .markAuthSpent key ref => (markAuthSpent s key ref, true)

/-- The store a call leaves. -/
def next (s : Store φ) (c : Call φ) : Store φ := (exec s c).1

/-! ## What exclusive means -/

/-- The call gives back the owner's transaction lease, or marks it spent. -/
def Op.endsTx (key : String) (byOwner : Prop) : Op φ → Prop
  | .releaseTx key' _ => byOwner ∧ key' = key
  | .markTxSpent key' _ => key' = key
  | _ => False

/-- The call gives back the owner's authorization lease, or marks one of its keys spent. -/
def Op.endsAuth (key authKey : String) (byOwner : Prop) : Op φ → Prop
  | .releaseTx key' authKey' => byOwner ∧ (key' = key ∨ authKey' = authKey)
  | .markTxSpent key' _ => key' = key
  | .markAuthSpent authKey' _ => authKey' = authKey
  | _ => False

/-- Every refresh the owner of `c` was granted in between still runs at `d`. -/
def RefreshesRun (s : Store φ) (before : List (Call φ)) (c : Call φ) (mid : List (Call φ)) (d : Call φ)
    (names : String → String → Prop) : Prop :=
  ∀ l e r key authKey leaseMs, mid = l ++ e :: r → e.op = .reserveTx key authKey leaseMs → names key authKey →
    e.owner = c.owner → (exec (run next s (before ++ c :: l)) e).2 = true → d.now < leaseEnd leaseMs e.now

/-- Exclusive reservations over a run from `s`. -/
structure Exclusive (s : Store φ) (calls : List (Call φ)) : Prop where
  /-- A granted transaction key is refused to every other owner until its lease ends. -/
  txHeld : ∀ before mid after c d key authKey leaseMs authKey' leaseMs',
    calls = before ++ c :: mid ++ d :: after →
    c.op = .reserveTx key authKey leaseMs → (exec (run next s before) c).2 = true →
    d.op = .reserveTx key authKey' leaseMs' → d.owner ≠ c.owner → d.now < leaseEnd leaseMs c.now →
    RefreshesRun s before c mid d (fun key' _ => key' = key) →
    (∀ e ∈ mid, ¬ e.op.endsTx key (e.owner = c.owner)) →
    (exec (run next s (before ++ c :: mid)) d).2 = false
  /-- So is a granted authorization key. -/
  authHeld : ∀ before mid after c d key authKey leaseMs key' leaseMs',
    calls = before ++ c :: mid ++ d :: after →
    c.op = .reserveTx key authKey leaseMs → authKey ≠ "" → (exec (run next s before) c).2 = true →
    d.op = .reserveTx key' authKey leaseMs' → d.owner ≠ c.owner → d.now < leaseEnd leaseMs c.now →
    RefreshesRun s before c mid d (fun _ authKey' => authKey' = authKey) →
    (∀ e ∈ mid, ¬ e.op.endsAuth key authKey (e.owner = c.owner)) →
    (exec (run next s (before ++ c :: mid)) d).2 = false
  /-- A spent transaction key is never granted again. -/
  txSpent : ∀ before mid after c d key facts authKey leaseMs,
    calls = before ++ c :: mid ++ d :: after →
    c.op = .markTxSpent key facts → d.op = .reserveTx key authKey leaseMs →
    (exec (run next s (before ++ c :: mid)) d).2 = false
  /-- Nor is a spent authorization key. -/
  authSpent : ∀ before mid after c d authKey ref key leaseMs,
    calls = before ++ c :: mid ++ d :: after →
    c.op = .markAuthSpent authKey ref → authKey ≠ "" → d.op = .reserveTx key authKey leaseMs →
    (exec (run next s (before ++ c :: mid)) d).2 = false
  /-- No operation on a transaction key removes another owner's live authorization lease. -/
  authKept : ∀ before after c authKey auth,
    calls = before ++ c :: after → (∀ key ref, c.op ≠ .markAuthSpent key ref) →
    (run next s before).authReserved.lookup authKey = some auth → c.now < auth.expires → auth.owner ≠ c.owner →
    (run next s (before ++ [c])).authReserved.lookup authKey = some auth

/-- **The condition on one call.** A mark, or a release that names no
    authorization key, follows the key of the row it finds; what lives under
    that key, if anything, is a reservation of the same transaction, and for
    a mark of the same owner. -/
def Aligned (s : Store φ) (c : Call φ) : Prop :=
  match c.op with
  | .markTxSpent key _ =>
    ∀ rec ∈ s.txReserved.lookup key, ∀ auth ∈ s.authReserved.lookup rec.authKey,
      c.now < auth.expires → auth.key = key ∧ auth.owner = c.owner
  | .releaseTx key authKey =>
    ∀ rec ∈ s.txReserved.lookup key, ∀ auth ∈ s.authReserved.lookup rec.authKey,
      c.now < auth.expires → authKey = "" → rec.owner = c.owner → auth.owner = c.owner → auth.key = key
  | _ => True

instance (s : Store φ) (c : Call φ) : Decidable (Aligned s c) :=
  match c with
  | ⟨owner, now, .markTxSpent key _⟩ =>
    inferInstanceAs (Decidable (∀ rec ∈ s.txReserved.lookup key, ∀ auth ∈ s.authReserved.lookup rec.authKey,
      now < auth.expires → auth.key = key ∧ auth.owner = owner))
  | ⟨owner, now, .releaseTx key authKey⟩ =>
    inferInstanceAs (Decidable (∀ rec ∈ s.txReserved.lookup key, ∀ auth ∈ s.authReserved.lookup rec.authKey,
      now < auth.expires → authKey = "" → rec.owner = owner → auth.owner = owner → auth.key = key))
  | ⟨_, _, .reserveTx ..⟩ => isTrue trivial
  | ⟨_, _, .markAuthSpent ..⟩ => isTrue trivial

/-- Every call of the run is aligned with the store it meets. -/
def AlignedRun (s : Store φ) : List (Call φ) → Prop
  | [] => True
  | c :: rest => Aligned s c ∧ AlignedRun (next s c) rest

instance decidableAlignedRun (s : Store φ) : (calls : List (Call φ)) → Decidable (AlignedRun s calls)
  | [] => isTrue trivial
  | c :: rest =>
    have := decidableAlignedRun (next s c) rest
    inferInstanceAs (Decidable (Aligned s c ∧ AlignedRun (next s c) rest))

variable {c : Call φ} {after before : List (Call φ)} {other owner : Owner} {s : Store φ} {authKey key : String}
  {leaseMs now t : ℤ}

theorem AlignedRun.meets (h : AlignedRun s (before ++ c :: after)) : Aligned (run next s before) c := by
  induction before generalizing s with
  | nil =>
    exact h.1
  | cons b before ih =>
    exact ih h.2

/-! ## What the operations do -/

/-- A granted reservation: both keys were free of other owners, and both rows are the caller's now. -/
theorem reserveTx_granted {owner : String} (h : (reserveTx s key authKey owner leaseMs now).2 = true) :
    key ≠ "" ∧ (∀ held, s.txReserved.lookup key = some held → now < held.expires → held.owner = owner)
      ∧ (authKey ≠ "" → ∀ auth, s.authReserved.lookup authKey = some auth → now < auth.expires →
        auth.owner = owner ∧ (auth.key ≠ "" → auth.key = key))
      ∧ (reserveTx s key authKey owner leaseMs now).1 = grant s key authKey owner leaseMs now := by
  unfold reserveTx at h ⊢
  split_ifs at h ⊢ with hname hspent hauth htx hpair
  refine ⟨fun hkey => hname (Or.inl hkey), ?_, ?_, rfl⟩
  · intro held hheld hlive
    by_contra hne
    apply htx
    rw [hheld]
    simp [TxLease.blocks, hlive, hne]
  · intro hak auth hlook hlive
    have hfree : ¬ auth.blocks key owner now := by
      intro hblocks
      exact hpair ⟨hak, by rw [hlook]; exact hblocks⟩
    simp only [AuthLease.blocks, hlive, true_and, decide_eq_true_eq, not_or, not_and, not_not] at hfree
    exact hfree

theorem reserveTx_refused {owner : String} (h : (reserveTx s key authKey owner leaseMs now).2 = false) :
    (reserveTx s key authKey owner leaseMs now).1 = s := by
  unfold reserveTx at h ⊢
  split_ifs at h ⊢ <;> rfl

/-- A release takes the caller's transaction row and at most one authorization row of the caller. -/
theorem releaseTx_cases (s : Store φ) (key authKey : String) (owner : Owner) : (releaseTx s key authKey owner).1 = s
      ∨ ∃ rec, s.txReserved.lookup key = some rec ∧ rec.owner = owner
        ∧ (releaseTx s key authKey owner).1.txReserved = AList.erase key s.txReserved
        ∧ ((releaseTx s key authKey owner).1.authReserved = s.authReserved
          ∨ ∃ auth, s.authReserved.lookup (if authKey = "" then rec.authKey else authKey) = some auth
            ∧ auth.owner = owner ∧ (releaseTx s key authKey owner).1.authReserved
              = AList.erase (if authKey = "" then rec.authKey else authKey) s.authReserved) := by
  unfold releaseTx
  by_cases hkey : key = ""
  · rw [if_pos hkey]
    exact Or.inl rfl
  rw [if_neg hkey]
  cases hrec : s.txReserved.lookup key with
  | none => exact Or.inl rfl
  | some rec =>
    dsimp only
    by_cases howner : (owner : String) ≠ "" ∧ rec.owner ≠ owner
    · rw [if_pos howner]
      exact Or.inl rfl
    · rw [if_neg howner]
      have hsame : rec.owner = owner := by
        by_contra hne
        exact howner ⟨owner.2, hne⟩
      refine Or.inr ⟨rec, rfl, hsame, rfl, ?_⟩
      generalize (if authKey = "" then rec.authKey else authKey) = ak
      dsimp only
      split_ifs with htake
      · cases hauth : s.authReserved.lookup ak with
        | none =>
          rw [hauth] at htake
          simp at htake
        | some auth =>
          rw [hauth] at htake
          refine Or.inr ⟨auth, rfl, ?_, rfl⟩
          simpa [owner.2] using htake.2
      · exact Or.inl rfl

theorem markTxSpent_authReserved (s : Store φ) (key : String) (facts : Option φ) {auth : AuthLease}
    (hlook : s.authReserved.lookup authKey = some auth)
    (hkept : ∀ rec, s.txReserved.lookup key = some rec → rec.authKey ≠ authKey) :
    (markTxSpent s key facts).authReserved.lookup authKey = some auth := by
  unfold markTxSpent
  split_ifs with hkey
  · exact hlook
  · exact hlook
  · rw [lookup_erase_eq, if_neg]
    · exact hlook
    · intro heq
      cases hrec : s.txReserved.lookup key with
      | none => simp [crossKey, hrec] at *
      | some rec =>
        apply hkept rec hrec
        rw [heq]
        simp [crossKey, hrec]

/-! ## Spent keys -/

theorem reserveTx_spent (s : Store φ) (key authKey owner : String) (leaseMs now : ℤ) :
    (reserveTx s key authKey owner leaseMs now).1.txSpent = s.txSpent
      ∧ (reserveTx s key authKey owner leaseMs now).1.authSpent = s.authSpent := by
  unfold reserveTx
  split_ifs <;> exact ⟨rfl, rfl⟩

theorem releaseTx_spent (s : Store φ) (key authKey owner : String) :
    (releaseTx s key authKey owner).1.txSpent = s.txSpent
      ∧ (releaseTx s key authKey owner).1.authSpent = s.authSpent := by
  unfold releaseTx
  split
  · exact ⟨rfl, rfl⟩
  · split <;> exact ⟨rfl, rfl⟩

/-- Spent transaction keys stay spent. -/
theorem next_txSpent (c : Call φ) (h : key ∈ s.txSpent) : key ∈ (next s c).txSpent := by
  unfold next exec
  cases c.op with
  | reserveTx key' authKey leaseMs =>
    dsimp only
    rw [(reserveTx_spent ..).1]
    exact h
  | releaseTx key' authKey =>
    dsimp only
    rw [(releaseTx_spent ..).1]
    exact h
  | markTxSpent key' facts =>
    dsimp only [markTxSpent]
    split_ifs
    · exact h
    all_goals exact Finset.mem_insert_of_mem h
  | markAuthSpent key' ref =>
    dsimp only [markAuthSpent]
    split_ifs <;> exact h

/-- Spent authorization keys stay spent. -/
theorem next_authSpent (c : Call φ) (h : (s.authSpent.lookup key).isSome) :
    ((next s c).authSpent.lookup key).isSome := by
  unfold next exec
  cases c.op with
  | reserveTx key' authKey leaseMs =>
    dsimp only
    rw [(reserveTx_spent ..).2]
    exact h
  | releaseTx key' authKey =>
    dsimp only
    rw [(releaseTx_spent ..).2]
    exact h
  | markTxSpent key' facts =>
    dsimp only [markTxSpent]
    split_ifs <;> exact h
  | markAuthSpent key' ref =>
    dsimp only [markAuthSpent]
    split_ifs with hkey
    · exact h
    all_goals
      rw [lookup_set]
      split_ifs
      · rfl
      · exact h

/-! ## Held leases -/

/-- `owner` holds the transaction key past time `t`. -/
def HoldsTx (s : Store φ) (key : String) (owner : Owner) (t : ℤ) : Prop :=
  ∃ held, s.txReserved.lookup key = some held ∧ held.owner = owner ∧ t < held.expires

/-- `owner` holds the authorization key for `key` past time `t`. -/
def HoldsAuth (s : Store φ) (authKey : String) (owner : Owner) (key : String) (t : ℤ) : Prop :=
  ∃ auth, s.authReserved.lookup authKey = some auth ∧ auth.owner = owner ∧ auth.key = key ∧ t < auth.expires

theorem HoldsTx.refuses (h : HoldsTx s key owner t) (hnow : now ≤ t) (hne : other ≠ owner) (authKey : String)
    (leaseMs : ℤ) : (reserveTx s key authKey other leaseMs now).2 = false := by
  obtain ⟨held, hlook, howner, hlive⟩ := h
  by_contra hgranted
  obtain ⟨-, htx, -⟩ := reserveTx_granted (by simpa using hgranted)
  have hsame := htx held hlook (by omega)
  rw [howner] at hsame
  exact hne (Subtype.ext hsame.symm)

theorem HoldsAuth.refuses {key' : String} (h : HoldsAuth s authKey owner key t) (hauth : authKey ≠ "")
    (hkey : key ≠ "") (hnow : now ≤ t) (hne : other ≠ owner ∨ key' ≠ key) (leaseMs : ℤ) :
    (reserveTx s key' authKey other leaseMs now).2 = false := by
  obtain ⟨auth, hlook, howner, hfor, hlive⟩ := h
  by_contra hgranted
  obtain ⟨-, -, hpair, -⟩ := reserveTx_granted (by simpa using hgranted)
  obtain ⟨hsame, hsamekey⟩ := hpair hauth auth hlook (by omega)
  rcases hne with hne | hne
  · rw [howner] at hsame
    exact hne (Subtype.ext hsame.symm)
  · rw [hfor] at hsamekey
    exact hne (hsamekey hkey).symm

/-- **STEP**: a call that does not end a transaction lease keeps it. -/
theorem next_holdsTx (h : HoldsTx s key owner t) (hnow : c.now ≤ t) (hend : ¬ c.op.endsTx key (c.owner = owner))
    (hrefresh : ∀ authKey leaseMs, c.op = .reserveTx key authKey leaseMs → c.owner = owner →
      (exec s c).2 = true → t < leaseEnd leaseMs c.now) : HoldsTx (next s c) key owner t := by
  obtain ⟨by', now, op⟩ := c
  cases op with
  | reserveTx key' authKey leaseMs =>
    cases hgranted : (reserveTx s key' authKey by' leaseMs now).2 with
    | false =>
      have hsame : next s ⟨by', now, .reserveTx key' authKey leaseMs⟩ = s := reserveTx_refused hgranted
      rw [hsame]
      exact h
    | true =>
      have hgrant : next s ⟨by', now, .reserveTx key' authKey leaseMs⟩ = grant s key' authKey by' leaseMs now :=
        (reserveTx_granted hgranted).2.2.2
      rw [hgrant]
      by_cases hkey : key' = key
      · subst hkey
        have hmine : by' = owner := by
          by_contra hne
          rw [h.refuses hnow hne] at hgranted
          cases hgranted
        exact ⟨_, lookup_set_self .., congrArg Subtype.val hmine, hrefresh authKey leaseMs rfl hmine hgranted⟩
      · obtain ⟨held, hlook, hrest⟩ := h
        refine ⟨held, ?_, hrest⟩
        dsimp only [grant]
        rw [lookup_set_ne _ _ (Ne.symm hkey)]
        exact hlook
  | releaseTx key' authKey =>
    obtain ⟨held, hlook, howner, hlive⟩ := h
    rcases releaseTx_cases s key' authKey by' with hsame | ⟨rec, hrec, hrecowner, htx, -⟩
    · refine ⟨held, ?_, howner, hlive⟩
      dsimp only [next, exec]
      rw [hsame]
      exact hlook
    · refine ⟨held, ?_, howner, hlive⟩
      dsimp only [next, exec]
      rw [htx, lookup_erase_eq, if_neg]
      · exact hlook
      · rintro rfl
        rw [hrec, Option.some.injEq] at hlook
        subst hlook
        exact hend ⟨Subtype.ext (hrecowner.symm.trans howner), rfl⟩
  | markTxSpent key' facts =>
    obtain ⟨held, hlook, hrest⟩ := h
    refine ⟨held, ?_, hrest⟩
    dsimp only [next, exec, markTxSpent]
    split_ifs
    · exact hlook
    all_goals
      rw [lookup_erase_eq, if_neg (fun heq => hend heq.symm)]
      exact hlook
  | markAuthSpent key' ref =>
    obtain ⟨held, hlook, hrest⟩ := h
    refine ⟨held, ?_, hrest⟩
    dsimp only [next, exec, markAuthSpent]
    split_ifs <;> exact hlook

/-- **STEP**: an aligned call that does not end an authorization lease keeps it. -/
theorem next_holdsAuth (h : HoldsAuth s authKey owner key t) (hauth : authKey ≠ "") (hkey : key ≠ "")
    (haligned : Aligned s c) (hnow : c.now ≤ t) (hend : ¬ c.op.endsAuth key authKey (c.owner = owner))
    (hrefresh : ∀ key' leaseMs, c.op = .reserveTx key' authKey leaseMs → c.owner = owner →
      (exec s c).2 = true → t < leaseEnd leaseMs c.now) : HoldsAuth (next s c) authKey owner key t := by
  obtain ⟨by', now, op⟩ := c
  cases op with
  | reserveTx key' authKey' leaseMs =>
    cases hgranted : (reserveTx s key' authKey' by' leaseMs now).2 with
    | false =>
      have hsame : next s ⟨by', now, .reserveTx key' authKey' leaseMs⟩ = s := reserveTx_refused hgranted
      rw [hsame]
      exact h
    | true =>
      have hgrant : next s ⟨by', now, .reserveTx key' authKey' leaseMs⟩ = grant s key' authKey' by' leaseMs now :=
        (reserveTx_granted hgranted).2.2.2
      rw [hgrant]
      by_cases hsame : authKey' = authKey
      · subst hsame
        have hmine : by' = owner ∧ key' = key := by
          by_contra hne
          rw [h.refuses hauth hkey hnow (not_and_or.1 hne)] at hgranted
          cases hgranted
        obtain ⟨rfl, rfl⟩ := hmine
        refine ⟨⟨by', leaseEnd leaseMs now, key'⟩, ?_, rfl, rfl, hrefresh key' leaseMs rfl rfl hgranted⟩
        dsimp only [grant]
        rw [if_neg hauth, lookup_set_self]
      · obtain ⟨auth, hlook, hrest⟩ := h
        refine ⟨auth, ?_, hrest⟩
        dsimp only [grant]
        split_ifs
        · exact hlook
        · rw [lookup_set_ne _ _ (Ne.symm hsame)]
          exact hlook
  | releaseTx key' authKey' =>
    obtain ⟨auth, hlook, howner, hfor, hlive⟩ := h
    refine ⟨auth, ?_, howner, hfor, hlive⟩
    dsimp only [next, exec]
    rcases releaseTx_cases s key' authKey' by' with hsame | ⟨rec, hrec, hrecowner, -,
      hkeeps | ⟨taken, htaken, hby, herase⟩⟩
    · rw [hsame]
      exact hlook
    · rw [hkeeps]
      exact hlook
    · rw [herase, lookup_erase_eq, if_neg]
      · exact hlook
      · intro heq
        rw [← heq, hlook, Option.some.injEq] at htaken
        subst htaken
        have hmine : by' = owner := Subtype.ext (hby.symm.trans howner)
        split_ifs at heq with hnamed
        · have hcross := haligned rec hrec auth (by rw [← heq]; exact hlook) (by dsimp only at hnow ⊢; omega)
            hnamed hrecowner hby
          exact hend ⟨hmine, Or.inl (hcross.symm.trans hfor)⟩
        · exact hend ⟨hmine, Or.inr heq.symm⟩
  | markTxSpent key' facts =>
    obtain ⟨auth, hlook, howner, hfor, hlive⟩ := h
    refine ⟨auth, markTxSpent_authReserved s key' facts hlook ?_, howner, hfor, hlive⟩
    rintro rec hrec rfl
    have hcross := haligned rec hrec auth hlook (by dsimp only at hnow ⊢; omega)
    exact hend (hcross.1.symm.trans hfor)
  | markAuthSpent key' ref =>
    obtain ⟨auth, hlook, hrest⟩ := h
    refine ⟨auth, ?_, hrest⟩
    dsimp only [next, exec, markAuthSpent]
    split_ifs
    · exact hlook
    all_goals
      rw [lookup_erase_eq, if_neg (fun heq => hend heq.symm)]
      exact hlook

/-! ## Runs -/

theorem run_between (s : Store φ) (before : List (Call φ)) (c : Call φ) (mid : List (Call φ)) :
    run next s (before ++ c :: mid) = run next (next (run next s before) c) mid := by
  rw [run_append, run_cons]

theorem now_le_of_between {mid : List (Call φ)} {d e : Call φ}
    (htimes : (before ++ c :: mid ++ d :: after).Pairwise fun x y => x.now ≤ y.now) (he : e ∈ c :: mid) :
    e.now ≤ d.now :=
  (List.pairwise_append.1 htimes).2.2 e (List.mem_append_right _ he) d (by simp)

/-- **RESERVATIONS ARE EXCLUSIVE** over a run whose calls are all aligned. -/
theorem exclusive_of_aligned (s : Store φ) (calls : List (Call φ))
    (htimes : calls.Pairwise fun c d => c.now ≤ d.now) (haligned : AlignedRun s calls) : Exclusive s calls where
  txHeld := by
    intro before mid after c d key authKey leaseMs authKey' leaseMs' hcalls hc hgranted hd hne hlive hrefresh hends
    subst hcalls
    -- the grant stands up to the call of the other owner
    have hholds : HoldsTx (run next s (before ++ c :: mid)) key c.owner d.now := by
      rw [run_between]
      refine run_keeps (fun s => HoldsTx s key c.owner d.now) ?_ ?_
      · obtain ⟨by', now, op⟩ := c
        dsimp only at hc
        subst hc
        have hgrant : next (run next s before) ⟨by', now, .reserveTx key authKey leaseMs⟩ = grant .. :=
          (reserveTx_granted hgranted).2.2.2
        rw [hgrant]
        exact ⟨_, lookup_set_self .., rfl, hlive⟩
      · intro l e r hmid hholds
        have hmem : e ∈ mid := by simp [hmid]
        refine next_holdsTx hholds (now_le_of_between htimes (List.mem_cons_of_mem _ hmem)) (hends e hmem) ?_
        intro authKey'' leaseMs'' he hmine hok
        rw [← run_between] at hok
        exact hrefresh l e r key authKey'' leaseMs'' hmid he rfl hmine hok
    have href := hholds.refuses (Int.le_refl _) hne authKey' leaseMs'
    unfold exec
    rw [hd]
    exact href
  authHeld := by
    intro before mid after c d key authKey leaseMs key' leaseMs' hcalls hc hauth hgranted hd hne hlive hrefresh hends
    subst hcalls
    have hkey : key ≠ "" := by
      unfold exec at hgranted
      rw [hc] at hgranted
      exact (reserveTx_granted hgranted).1
    have hholds : HoldsAuth (run next s (before ++ c :: mid)) authKey c.owner key d.now := by
      rw [run_between]
      refine run_keeps (fun s => HoldsAuth s authKey c.owner key d.now) ?_ ?_
      · obtain ⟨by', now, op⟩ := c
        dsimp only at hc
        subst hc
        have hgrant : next (run next s before) ⟨by', now, .reserveTx key authKey leaseMs⟩ = grant .. :=
          (reserveTx_granted hgranted).2.2.2
        rw [hgrant]
        refine ⟨⟨by', leaseEnd leaseMs now, key⟩, ?_, rfl, rfl, hlive⟩
        dsimp only [grant]
        rw [if_neg hauth, lookup_set_self]
      · intro l e r hmid hholds
        have hmem : e ∈ mid := by simp [hmid]
        refine next_holdsAuth hholds hauth hkey ?_ (now_le_of_between htimes (List.mem_cons_of_mem _ hmem))
          (hends e hmem) ?_
        · rw [← run_between]
          have hmeets : AlignedRun s ((before ++ c :: l) ++ e :: (r ++ d :: after)) := by
            rw [hmid] at haligned
            simpa using haligned
          exact hmeets.meets
        · intro key'' leaseMs'' he hmine hok
          rw [← run_between] at hok
          exact hrefresh l e r key'' authKey leaseMs'' hmid he rfl hmine hok
    have href : (reserveTx _ key' authKey d.owner leaseMs' d.now).2 = false :=
      hholds.refuses hauth hkey (Int.le_refl _) (Or.inl hne) leaseMs'
    unfold exec
    rw [hd]
    exact href
  txSpent := by
    intro before mid after c d key facts authKey leaseMs hcalls hc hd
    by_contra hgranted
    have hok : (reserveTx (run next s (before ++ c :: mid)) key authKey d.owner leaseMs d.now).2 = true := by
      unfold exec at hgranted
      rw [hd] at hgranted
      simpa using hgranted
    have hkey := (reserveTx_granted hok).1
    have hspent : key ∈ (run next s (before ++ c :: mid)).txSpent := by
      rw [run_between]
      refine run_invariant (fun s : Store φ => key ∈ s.txSpent) mid ?_ fun _ e h => next_txSpent e h
      unfold next exec
      rw [hc]
      dsimp only [markTxSpent]
      rw [if_neg hkey]
      exact Finset.mem_insert_self _ _
    unfold reserveTx at hok
    rw [if_pos (by simp [isTxSpent, hkey, hspent] : isTxSpent _ key = true)] at hok
    simp at hok
  authSpent := by
    intro before mid after c d authKey ref key leaseMs hcalls hc hauth hd
    have hspent : ((run next s (before ++ c :: mid)).authSpent.lookup authKey).isSome := by
      rw [run_between]
      refine run_invariant (fun s : Store φ => (s.authSpent.lookup authKey).isSome) mid ?_ fun _ e h =>
        next_authSpent e h
      unfold next exec
      rw [hc]
      dsimp only [markAuthSpent]
      rw [if_neg hauth]
      dsimp only
      rw [lookup_set_self]
      rfl
    unfold exec
    rw [hd]
    dsimp only [reserveTx]
    split_ifs with hname htx hnot
    · rfl
    · rfl
    · rfl
    all_goals exact absurd ⟨hauth, by simp [isAuthSpent, hauth, hspent]⟩ hnot
  authKept := by
    intro before after c authKey auth hcalls hop hlook hlive hne
    have hal := (hcalls ▸ haligned).meets
    rw [run_concat]
    obtain ⟨by', now, op⟩ := c
    cases op with
    | reserveTx key' authKey' leaseMs =>
      cases hgranted : (reserveTx (run next s before) key' authKey' by' leaseMs now).2 with
      | false =>
        have hsame : next (run next s before) ⟨by', now, .reserveTx key' authKey' leaseMs⟩ = _ :=
          reserveTx_refused hgranted
        rw [hsame]
        exact hlook
      | true =>
        obtain ⟨-, -, hpair, hgrant⟩ := reserveTx_granted hgranted
        dsimp only [next, exec]
        rw [hgrant]
        dsimp only [grant]
        split_ifs with hempty
        · exact hlook
        · rw [lookup_set_ne]
          · exact hlook
          · rintro rfl
            exact hne (hpair hempty auth hlook hlive).1
    | releaseTx key' authKey' =>
      dsimp only [next, exec]
      rcases releaseTx_cases (run next s before) key' authKey' by' with
        hsame | ⟨rec, -, -, -, hkeeps | ⟨taken, htaken, hby, herase⟩⟩
      · rw [hsame]
        exact hlook
      · rw [hkeeps]
        exact hlook
      · rw [herase, lookup_erase_eq, if_neg]
        · exact hlook
        · intro heq
          rw [← heq, hlook, Option.some.injEq] at htaken
          subst htaken
          exact hne hby
    | markTxSpent key' facts =>
      refine markTxSpent_authReserved _ key' facts hlook ?_
      rintro rec hrec rfl
      exact hne (hal rec hrec auth hlook hlive).2
    | markAuthSpent key' ref =>
      exact absurd rfl (hop key' ref)

/-- An inline run marks its transfer spent while a second process tries the same keys. -/
def alignedCalls : List (Call Unit) :=
  [ { owner := ⟨"1:n", by decide⟩, now := 0, op := .reserveTx "tx" "auth" 180000 },
    { owner := ⟨"late:2:r", by decide⟩, now := 5, op := .reserveTx "tx" "auth" 180000 },
    { owner := ⟨"1:n", by decide⟩, now := 9, op := .markTxSpent "tx" none },
    { owner := ⟨"1:n", by decide⟩, now := 9, op := .markAuthSpent "auth" "tx" } ]

theorem exclusive_of_aligned_sample : Exclusive emptyStore alignedCalls :=
  exclusive_of_aligned emptyStore alignedCalls (by decide +kernel) (by decide +kernel)

/-- A lease on `t1` lapses, another owner takes its authorization key for
    `t2`, and the late mark of `t1` drops that live row. -/
def staleCalls : List (Call Unit) :=
  [ { owner := ⟨"slow", by decide⟩, now := 0, op := .reserveTx "t1" "auth" 180000 },
    { owner := ⟨"next", by decide⟩, now := 200000, op := .reserveTx "t2" "auth" 180000 },
    { owner := ⟨"slow", by decide⟩, now := 200001, op := .markTxSpent "t1" none },
    { owner := ⟨"third", by decide⟩, now := 200002, op := .reserveTx "t3" "auth" 180000 } ]

/-- **A STALE ROW BREAKS EXCLUSION**: the live lease of `next` is removed by an
    operation of `slow`, and its authorization key is granted again. -/
theorem stale_mark_frees_live_key :
    (staleCalls.Pairwise fun c d => c.now ≤ d.now) ∧ ¬ Exclusive emptyStore staleCalls := by
  refine ⟨by decide +kernel, fun h => ?_⟩
  have hrefused := h.authHeld [staleCalls[0]] [staleCalls[2]] [] staleCalls[1] staleCalls[3] "t2" "auth" 180000
    "t3" 180000 rfl rfl (by decide) (by decide +kernel) rfl (by decide) (by decide) ?_ ?_
  · exact absurd hrefused (by decide +kernel)
  · intro l e r key authKey leaseMs hmid he
    obtain ⟨rfl, rfl⟩ : l = [] ∧ staleCalls[2] = e := by
      cases l with
      | nil => exact ⟨rfl, (List.cons.inj hmid).1⟩
      | cons x l => simp at hmid
    cases he
  · intro e he
    rw [List.mem_singleton] at he
    subst he
    exact fun heq : "t1" = "t2" => absurd heq (by decide)

end TxReservation
