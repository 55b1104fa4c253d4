import Chit402.LateReadProofs

/-! # What a late run asks the signer about

    The decision of a run is spread over `rebind`, `decideLateExpiry` and a
    merge of their answers.  Here it is one condition on the row, the chain
    read and the clock, and a run asks the signer only about a chain read of
    its own that meets it, unless its store has lost a signature. -/

namespace LateMatch

open Interleaving LateStore LateIssue

variable (rules : Rules)

/-! ## The decision as one condition -/

/-- A finalized read that is the payment of the row, at a time that is not too late. On-chain times are seconds. -/
structure FullMatch (horizonMs : ℤ) (row : LateRow) (chain : Chain) (now : ℤ) : Prop where
  ok : chain.ok = true
  finalized : chain.finalized = true
  network : ∃ network, firstOf [chain.network] = some network ∧ sameNetwork rules network row.network = true
    ∧ rules.canonicalNetwork network ≠ "base-sepolia"
  asset : ∃ got want, firstOf [chain.asset] = some got ∧ firstOf [row.asset] = some want ∧ sameAsset want got = true
  payee : ∃ payTo payee, firstOf [chain.payTo] = some payTo ∧ firstOf [row.payee] = some payee
    ∧ rules.samePayee payTo payee = true
  transfers : chain.transferCount = some 1
  amount : ∃ amount quote, rules.read chain.amount = some amount ∧ rules.read row.auth.value = some amount
    ∧ rules.read row.route_quote = some quote ∧ quote ≤ amount
  payer : ∃ payer chainPayer authorizer, firstOf [row.auth.from] = some payer ∧ firstOf [chain.payer] = some chainPayer
    ∧ firstOf [chain.authorizer] = some authorizer ∧ rules.samePayee chainPayer payer = true
    ∧ rules.samePayee authorizer payer = true
  time : ∃ ts submitted validBefore, chain.blockTimestamp = some ts ∧ row.submitted_at = some submitted
    ∧ row.auth.validBefore = some validBefore ∧ row.auth.validAfter.getD 0 < ts ∧ ts < validBefore
    ∧ (∀ issued ∈ row.challenge_issued_at, issued / 1000 ≤ ts) ∧ (submitted - LATE_SKEW_MS) / 1000 ≤ ts
    ∧ now ≤ submitted + horizonMs

/-- What `rebind` and `decideLateExpiry` read of a row. No write changes it. -/
structure Bill where
  network : String
  asset : Option String
  payee : Option String
  route_quote : Option Amount
  auth : Authorization
  submitted_at : Option ℤ
  challenge_issued_at : Option ℤ

def billOf (row : LateRow) : Bill where
  network := row.network
  asset := row.asset
  payee := row.payee
  route_quote := row.route_quote
  auth := row.auth
  submitted_at := row.submitted_at
  challenge_issued_at := row.challenge_issued_at

variable {rules} {horizonMs : ℤ} {row : LateRow} {chain : Chain} {now : ℤ}

theorem FullMatch.of_bill {row' : LateRow} (hbill : billOf row = billOf row')
    (h : FullMatch rules horizonMs row chain now) : FullMatch rules horizonMs row' chain now := by
  obtain ⟨hnetwork, hasset, hpayee, hquote, hauth, hsubmitted, hissued⟩ := Bill.mk.inj hbill
  obtain ⟨hok, hfinalized, network, asset, payee, htransfers, amount, payer, time⟩ := h
  rw [hnetwork] at network
  rw [hasset] at asset
  rw [hpayee] at payee
  rw [hquote, hauth] at amount
  rw [hauth] at payer
  rw [hsubmitted, hauth, hissued] at time
  exact ⟨hok, hfinalized, network, asset, payee, htransfers, amount, payer, time⟩

theorem of_ite {α : Type} {c : Prop} [Decidable c] {x y v : α} (hx : x ≠ v) (h : (if c then x else y) = v) :
    ¬ c ∧ y = v := by
  split_ifs at h with hc
  · exact (hx h).elim
  · exact ⟨hc, h⟩

/-- `rebind` confirms a finalized read of the row's transfer. A read that names no network passes the first check. -/
theorem rebind_confirmed (h : rebind rules row chain = .confirmed) : chain.ok = true ∧ chain.finalized = true
      ∧ ((firstOf [chain.network]).any (fun network => ¬ sameNetwork rules network row.network) = false
        ∧ rules.canonicalNetwork ((firstOf [chain.network]).getD row.network) ≠ "base-sepolia")
      ∧ (∃ got want, firstOf [chain.asset] = some got ∧ firstOf [row.asset] = some want ∧ sameAsset want got = true)
      ∧ (∃ payTo payee, firstOf [chain.payTo] = some payTo ∧ firstOf [row.payee] = some payee
        ∧ rules.samePayee payTo payee = true) ∧ chain.transferCount = some 1
      ∧ (∃ amount quote, rules.read chain.amount = some amount ∧ rules.read row.auth.value = some amount
        ∧ rules.read row.route_quote = some quote ∧ quote ≤ amount)
      ∧ ∃ payer chainPayer authorizer, firstOf [row.auth.from] = some payer ∧ firstOf [chain.payer] = some chainPayer
        ∧ firstOf [chain.authorizer] = some authorizer ∧ rules.samePayee chainPayer payer = true
        ∧ rules.samePayee authorizer payer = true := by
  have hunsure : ∀ pending : Bool, (if pending = true then Verdict.unknown else .mismatch_hold)
    ≠ .confirmed := by decide
  unfold rebind at h
  obtain ⟨hok, h⟩ := of_ite (hunsure chain.pending) h
  obtain ⟨hfinalized, h⟩ := of_ite (by decide) h
  obtain ⟨hnetwork, h⟩ := of_ite (by decide) h
  obtain ⟨hsepolia, h⟩ := of_ite (by decide) h
  split at h
  case h_2 => cases h
  case h_1 got want hgot hwant =>
  obtain ⟨hasset, h⟩ := of_ite (by decide) h
  split at h
  case h_2 => cases h
  case h_1 payTo payee hpayTo hpayee =>
  obtain ⟨hsame, h⟩ := of_ite (by decide) h
  split at h
  case h_1 => cases h
  case h_2 transferCount htransfers =>
  obtain ⟨hcount, h⟩ := of_ite (by decide) h
  split at h
  case h_2 => cases h
  case h_1 amount quote value hamount hquote hvalue =>
  obtain ⟨hless, h⟩ := of_ite (by decide) h
  split at h
  case h_2 => cases h
  case h_1 payer chainPayer authorizer hpayer hchainPayer hauthorizer =>
  obtain ⟨hpaid, h⟩ := of_ite (by decide) h
  obtain ⟨hauthorized, -⟩ := of_ite (by decide) h
  have hone : transferCount = 1 := of_not_not hcount
  have hexact : amount = value := of_not_not fun hne => hless (Or.inl hne)
  refine ⟨by simpa using hok, by simpa using hfinalized, ⟨by simpa using hnetwork, hsepolia⟩,
    ⟨got, want, hgot, hwant, by simpa using hasset⟩, ⟨payTo, payee, hpayTo, hpayee, by simpa using hsame⟩, ?_,
    ⟨amount, quote, hamount, ?_, hquote, ?_⟩,
    ⟨payer, chainPayer, authorizer, hpayer, hchainPayer, hauthorizer, by simpa using hpaid, by simpa using hauthorized⟩⟩
  · rw [htransfers, hone]
  · rw [hvalue, hexact]
  · exact not_lt.1 fun hlt => hless (Or.inr hlt)

variable {nonceUnused : Bool} {o : Op}

/-- `decideLateExpiry` issues on a finalized read only inside every one of its bounds. -/
theorem decideLateExpiry_issue (h : decideLateExpiry row chain now nonceUnused horizonMs = .issue) :
    ∃ ts submitted validBefore, chain.blockTimestamp = some ts ∧ row.submitted_at = some submitted
      ∧ row.auth.validBefore = some validBefore ∧ row.auth.validAfter.getD 0 < ts ∧ ts < validBefore
      ∧ (∀ issued ∈ row.challenge_issued_at, issued / 1000 ≤ ts) ∧ (submitted - LATE_SKEW_MS) / 1000 ≤ ts
      ∧ now ≤ submitted + horizonMs := by
  unfold decideLateExpiry at h
  split at h
  case h_1 => cases h
  case h_2 submitted hsubmitted =>
  dsimp only at h
  by_cases hmatched : ¬ (chain.ok = true ∧ chain.finalized = true)
  · rw [if_pos hmatched] at h
    split_ifs at h
  rw [if_neg hmatched] at h
  obtain ⟨hlate, h⟩ := of_ite (by decide) h
  split at h
  case h_1 => cases h
  case h_2 ts hts =>
  obtain ⟨hskew, h⟩ := of_ite (by decide) h
  split at h
  case h_1 => cases h
  case h_2 validBefore hvalidBefore =>
  obtain ⟨hwindow, h⟩ := of_ite (by decide) h
  obtain ⟨hissued, -⟩ := of_ite (by decide) h
  have hinside : row.auth.validAfter.getD 0 < ts ∧ ts < validBefore := of_not_not hwindow
  refine ⟨ts, submitted, validBefore, hts, hsubmitted, hvalidBefore, hinside.1, hinside.2, ?_, not_lt.1 hskew, ?_⟩
  · intro issued hmem
    rw [Option.mem_def.1 hmem] at hissued
    simpa using hissued
  · simpa using hlate

theorem decideLateExpiry_ne_confirmed : decideLateExpiry row chain now nonceUnused horizonMs ≠ .confirmed := by
  unfold decideLateExpiry
  grind

/-- A decision is confirmed where the read matches and the time is not too late. -/
theorem rebind_of_confirmed {deps : Deps} (h : decideNext rules deps row chain now = .confirmed) :
    rebind rules row chain = .confirmed ∧ decideLateExpiry row chain now chain.nonceUnused deps.horizonMs = .issue := by
  unfold decideNext at h
  dsimp only at h
  obtain ⟨-, h⟩ := of_ite (by decide) h
  obtain ⟨-, h⟩ := of_ite (by decide) h
  by_cases hboth : rebind rules row chain = .confirmed ∧ decideLateExpiry row
      (if rebind rules row chain = .unknown then { chain with ok := false, finalized := false } else chain)
      now chain.nonceUnused deps.horizonMs = .issue
  · obtain ⟨hbound, hissue⟩ := hboth
    have hother : ¬ rebind rules row chain = .unknown := by
      rw [hbound]
      nofun
    rw [if_neg hother] at hissue
    exact ⟨hbound, hissue⟩
  · rw [if_neg hboth] at h
    exact (decideLateExpiry_ne_confirmed h).elim

theorem fullMatch_of_confirmed {deps : Deps} (hnetwork : (firstOf [chain.network]).isSome)
    (h : decideNext rules deps row chain now = .confirmed) : FullMatch rules deps.horizonMs row chain now := by
  obtain ⟨hbound, hissue⟩ := rebind_of_confirmed h
  obtain ⟨hok, hfinalized, ⟨hsame, hsepolia⟩, hasset, hpayee, htransfers, hamount, hpayer⟩ := rebind_confirmed hbound
  obtain ⟨network, hnamed⟩ := Option.isSome_iff_exists.1 hnetwork
  rw [hnamed, Option.any_some] at hsame
  rw [hnamed, Option.getD_some] at hsepolia
  exact ⟨hok, hfinalized, ⟨network, hnamed, by simpa using hsame, hsepolia⟩, hasset, hpayee, htransfers, hamount,
    hpayer, decideLateExpiry_issue hissue⟩

/-! ## What a run has been told -/

variable (rules)

/-- What a run has been answered, whether its row was gone or signed when it looked, and whether the
    answers are none that a store keeping rows and signatures gives. -/
structure Told where
  answers : Set (Answer Op Res)
  absent : Prop
  signed : Prop
  broken : Prop

def tell (k : Told) (o : Op) (r : Option (Res o)) : Told where
  answers := insert ⟨o, r⟩ k.answers
  absent := match o, r with
    | .getLate _, some none => True
    | _, _ => k.absent
  signed := match o, r with
    | .getLate _, some (some row) => k.signed ∨ row.jws.isSome
    | _, _ => k.signed
  broken := match o, r with
    | .getLate _, some (some row) => k.broken ∨ k.absent ∨ (k.signed ∧ row.jws = none)
    | _, _ => k.broken

/-- The payment a run asks the signer about: a chain read of its own, matched with the row it read then, at
    its own time, by a run that has won the row. -/
def Decided (deps : Deps) (id : String) (k : Told) (chain : Chain) : Prop :=
  ∃ row now found, ⟨.getLate id, some (some row)⟩ ∈ k.answers ∧ ⟨.now, some now⟩ ∈ k.answers
    ∧ (∃ record, ⟨.readChain record, some found⟩ ∈ k.answers)
    ∧ decideNext rules deps row found now = .confirmed
    ∧ (∃ patch won, ⟨.casLate id [.confirmed] .issuing patch, some (some won)⟩ ∈ k.answers)
    ∧ chain = { found with tx := chain.tx }

/-- What a run does to rows and to the signer. -/
def Orderly (deps : Deps) (id : String) (k : Told) : Op → Prop
  | .getLate id' => id' = id
  | .casLate id' allowed _ patch => id' = id ∧ (∀ state ∈ allowed, state.terminal → state = .issued)
      ∧ (patch.jws.isSome → allowed = [.issuing])
  | .signer _ chain _ => k.broken ∨ Decided rules deps id k chain
  | _ => True

structure Told.Le (k k' : Told) : Prop where
  answers : k.answers ⊆ k'.answers
  absent : k.absent → k'.absent
  signed : k.signed → k'.signed
  broken : k.broken → k'.broken

/-- A program of the run on the row. -/
abbrev Ordered {α : Type} (deps : Deps) (id : String) (k : Told) (p : Prog α) : Prop :=
  Judge (Orderly rules deps id) tell (fun k' _ => Told.Le k k') k p

variable {rules} {deps : Deps} {id : String} {k k' : Told} {α β : Type}

theorem Told.Le.refl (k : Told) : Told.Le k k := ⟨subset_rfl, fun h => h, fun h => h, fun h => h⟩

theorem Told.Le.trans {k'' : Told} (h : Told.Le k k') (h' : Told.Le k' k'') : Told.Le k k'' := by
  constructor
  case answers => exact h.answers.trans h'.answers
  case absent => exact fun ha => h'.absent (h.absent ha)
  case signed => exact fun hs => h'.signed (h.signed hs)
  case broken => exact fun hb => h'.broken (h.broken hb)

theorem le_tell (k : Told) (o : Op) (r : Option (Res o)) : Told.Le k (tell k o r) := by
  constructor
  case answers => exact Set.subset_insert ..
  case absent =>
    intro h
    dsimp only [tell]
    split
    · trivial
    · exact h
  case signed =>
    intro h
    dsimp only [tell]
    split
    · exact Or.inl h
    · exact h
  case broken =>
    intro h
    dsimp only [tell]
    split
    · exact Or.inl h
    · exact h

theorem Decided.mono (hle : Told.Le k k') {chain : Chain} (h : Decided rules deps id k chain) :
    Decided rules deps id k' chain := by
  obtain ⟨row, now, found, hrow, hnow, ⟨record, hfound⟩, hnext, ⟨patch, won, hwon⟩, hchain⟩ := h
  exact ⟨row, now, found, hle.answers hrow, hle.answers hnow, ⟨record, hle.answers hfound⟩, hnext,
    ⟨patch, won, hle.answers hwon⟩, hchain⟩

/-! ## Rules -/

theorem ordered_pure (a : α) : Ordered rules deps id k (pure a) := Told.Le.refl k

theorem ordered_thrown : Ordered rules deps id k (.thrown : Prog α) := Told.Le.refl k

variable {p : Prog α}

theorem Ordered.mono (hle : Told.Le k k') (h : Ordered rules deps id k' p) :
    Judge (Orderly rules deps id) tell (fun k'' _ => Told.Le k k'') k' p :=
  Judge.mono (fun _ _ h' => hle.trans h') h

theorem ordered_bind {f : α → Prog β} (hp : Ordered rules deps id k p)
    (h : ∀ k' a, Told.Le k k' → Ordered rules deps id k' (f a)) : Ordered rules deps id k (p >>= f) := by
  refine judge_bind (Judge.mono ?_ hp)
  intro k' r hle
  cases r with
  | some a => exact (h k' a hle).mono hle
  | none => exact hle

theorem ordered_call (ho : Orderly rules deps id k o) : Ordered rules deps id k (call o) :=
  judge_call ho (fun _ => le_tell ..) (le_tell ..)

theorem ordered_next {f : Res o → Prog β} (ho : Orderly rules deps id k o)
    (h : ∀ r, Ordered rules deps id (tell k o (some r)) (f r)) : Ordered rules deps id k (Prog.call o >>= f) :=
  judge_call_bind ho (fun r => (h r).mono (le_tell ..)) (le_tell ..)

theorem ordered_orElse {handler : Prog α} (hp : Ordered rules deps id k p)
    (h : ∀ k', Told.Le k k' → Ordered rules deps id k' handler) : Ordered rules deps id k (p.orElse handler) := by
  refine judge_orElse (Judge.mono ?_ hp)
  intro k' r hle
  cases r with
  | some a => exact hle
  | none => exact (h k' hle).mono hle

theorem ordered_andFinally {after : Prog Unit} (hp : Ordered rules deps id k p)
    (h : ∀ k', Told.Le k k' → Ordered rules deps id k' after) : Ordered rules deps id k (p.andFinally after) := by
  refine judge_andFinally (Judge.mono ?_ hp)
  intro k' r hle
  refine Judge.mono ?_ (h k' hle)
  intro k'' r' hle'
  cases r' with
  | some _ => exact hle.trans hle'
  | none => exact hle.trans hle'

/-- The run has read this row, or found none. -/
def Looked (id : String) (k : Told) (row : LateRow) : Prop := ⟨.getLate id, some (some row)⟩ ∈ k.answers ∨ k.absent

theorem Looked.mono {row : LateRow} (hle : Told.Le k k') (h : Looked id k row) : Looked id k' row := by
  rcases h with hread | habsent
  · exact Or.inl (hle.answers hread)
  · exact Or.inr (hle.absent habsent)

/-- What the next look at the row tells. -/
structure Reads (id : String) (k k' : Told) (row : LateRow) : Prop where
  le : Told.Le k k'
  looked : Looked id k' row
  appeared : k.absent → k'.broken
  signed : row.jws.isSome → k'.signed
  lost : k.signed → row.jws = none → k'.broken

theorem reads_tell (k : Told) (id : String) (row : LateRow) :
    Reads id k (tell k (.getLate id) (some (some row))) row := by
  constructor
  case le => exact le_tell ..
  case looked => exact Or.inl (Set.mem_insert ..)
  case appeared => exact fun h => Or.inr (Or.inl h)
  case signed => exact fun h => Or.inr h
  case lost => exact fun h hnone => Or.inr (Or.inr ⟨h, hnone⟩)

theorem ordered_present {f : LateRow → Prog β} (h : ∀ k' row, Reads id k k' row → Ordered rules deps id k' (f row)) :
    Ordered rules deps id k (Prog.call (.getLate id) >>= fun row => present row >>= f) := by
  refine ordered_next rfl ?_
  intro row
  cases row with
  | some row => exact h _ row (reads_tell k id row)
  | none => exact ordered_thrown

theorem orderly_open {allowed : List LateState} {target : LateState} {patch : LatePatch}
    (hopen : ∀ state ∈ allowed, state.terminal → state = .issued) (hjws : patch.jws = none) :
    Orderly rules deps id k (.casLate id allowed target patch) := by
  refine ⟨rfl, hopen, ?_⟩
  rw [hjws]
  nofun

end LateMatch
