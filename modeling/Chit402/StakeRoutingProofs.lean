import Chit402.RevenueConfigProofs
import Mathlib.Algebra.Order.BigOperators.Group.List
import Mathlib.Algebra.Order.Group.Nat

/-! # Where a distributed balance goes

    `distribute` and `_routeStake` for every configuration a run reaches.

    The loop gives what is left to the last route of the array, if that one
    is active, and divides by the weights of all routes, the passed over
    ones included. -/

namespace StakeRouting

open ExceptFlow Solidity Custody RevenueSplitter RevenueConfig

/-! ## Floored shares -/

/-- The loop passes over the route. -/
abbrev Idle (r : StakeRoute) : Prop := r.active = false ∨ r.pool = 0

def floorShare (amount totalStakeWeight : Nat) (r : StakeRoute) : Nat :=
  if Idle r then 0 else amount * r.weightBps / totalStakeWeight

def activeWeight (routes : List StakeRoute) : Nat :=
  (routes.map fun r => if Idle r then 0 else r.weightBps).sum

def idleWeight (routes : List StakeRoute) : Nat :=
  (routes.map fun r => if Idle r then r.weightBps else 0).sum

def earlierShares (amount totalStakeWeight : Nat) (routes : List StakeRoute) : Nat :=
  (routes.map (floorShare amount totalStakeWeight)).sum

variable {amount total : Nat}

theorem totalWeight_parts (routes : List StakeRoute) :
    totalWeight routes = activeWeight routes + idleWeight routes := by
  induction routes with
  | nil => rfl
  | cons r rest ih =>
    show r.weightBps + totalWeight rest
      = (if Idle r then 0 else r.weightBps) + activeWeight rest
        + ((if Idle r then r.weightBps else 0) + idleWeight rest)
    split <;> omega

theorem activeWeight_append (l r : List StakeRoute) : activeWeight (l ++ r) = activeWeight l + activeWeight r := by
  rw [activeWeight, List.map_append, List.sum_append]
  rfl

theorem floorShare_le (r : StakeRoute) :
    total * floorShare amount total r ≤ amount * (if Idle r then 0 else r.weightBps) := by
  rw [floorShare]
  split
  · exact Nat.le_refl _
  · exact Nat.mul_div_le _ _

theorem earlierShares_le (routes : List StakeRoute) :
    total * earlierShares amount total routes ≤ amount * activeWeight routes := by
  induction routes with
  | nil => exact Nat.le_refl _
  | cons r rest ih =>
    have hr := @floorShare_le amount total r
    show total * (floorShare amount total r + earlierShares amount total rest)
      ≤ amount * ((if Idle r then 0 else r.weightBps) + activeWeight rest)
    rw [Nat.mul_add, Nat.mul_add]
    omega

/-- What the floors leave out are the remainders. -/
theorem earlierShares_rest (routes : List StakeRoute) : total * earlierShares amount total routes
      + (routes.map fun r => if Idle r then 0 else amount * r.weightBps % total).sum
        = amount * activeWeight routes := by
  induction routes with
  | nil => rfl
  | cons r rest ih =>
    have hr : total * floorShare amount total r + (if Idle r then 0 else amount * r.weightBps % total)
        = amount * (if Idle r then 0 else r.weightBps) := by
      rw [floorShare]
      split
      · rfl
      · exact Nat.div_add_mod _ _
    show total * (floorShare amount total r + earlierShares amount total rest)
        + ((if Idle r then 0 else amount * r.weightBps % total)
          + (rest.map fun r => if Idle r then 0 else amount * r.weightBps % total).sum)
      = amount * ((if Idle r then 0 else r.weightBps) + activeWeight rest)
    rw [Nat.mul_add, Nat.mul_add]
    omega

/-- Floors within a unit of the fractions of `active` miss at most a unit a route. -/
theorem le_earlierShares {active : Nat} {routes : List StakeRoute} (h : ∀ r ∈ routes, ¬ Idle r →
      amount * r.weightBps ≤ active * (amount * r.weightBps / total + 1)) :
    amount * activeWeight routes ≤ active * earlierShares amount total routes + active * routes.length := by
  induction routes with
  | nil => exact Nat.zero_le _
  | cons r rest ih =>
    have hrest := ih fun r' hr' => h r' (List.mem_cons_of_mem r hr')
    have hr : amount * (if Idle r then 0 else r.weightBps) ≤ active * floorShare amount total r + active := by
      rw [floorShare]
      split
      · exact Nat.zero_le _
      · rename_i hactive
        exact h r List.mem_cons_self hactive
    show amount * ((if Idle r then 0 else r.weightBps) + activeWeight rest)
      ≤ active * (floorShare amount total r + earlierShares amount total rest) + active * (rest.length + 1)
    rw [Nat.mul_add, Nat.mul_add, Nat.mul_add, Nat.mul_one]
    omega

theorem earlierShares_fit (htotal : 0 < total) {routes : List StakeRoute} (h : activeWeight routes ≤ total) :
    earlierShares amount total routes ≤ amount := by
  have hle := @earlierShares_le amount total routes
  have hweight := Nat.mul_le_mul_left amount h
  rw [Nat.mul_comm amount total] at hweight
  exact Nat.le_of_mul_le_mul_left (Nat.le_trans hle hweight) htotal

/-! ## Payments -/

/-- A payment, and which reply of the transaction answers it. -/
structure Payment where
  dst : Address
  amount : Nat
  reply : Nat

def paid (payments : List Payment) : Nat := (payments.map (·.amount)).sum

/-- `w'` is reached by making the payments in turn.  A payment of nothing is not made. -/
inductive Pays (replies : Replies) : World → List Payment → World → Prop where
  | done (w : World) : Pays replies w [] w
  | write {w w' : World} {payments : List Payment} (s : State) (h : Pays replies (w.write s) payments w') :
      Pays replies w payments w'
  | skip {w w' : World} {payments : List Payment} (dst : Address) (i : Nat) (h : Pays replies w payments w') :
      Pays replies w (⟨dst, 0, i⟩ :: payments) w'
  | pay {w w' : World} {payments : List Payment} (p : Payment) (hok : (replies p.reply).ok = true)
      (hheld : p.amount ≤ w.holdings .native)
      (h : Pays replies (Trace.run play (w.debit .native p.amount) (replies p.reply).calls) payments w') :
      Pays replies w (p :: payments) w'

variable {replies : Replies} {m : Msg}

variable {x : Except Revert World} {l l' : List Payment} {routes : List StakeRoute} {a boost distributed : Nat}
  {parts : Shares} {r : StakeRoute} {s : State} {w1 w2 : World} {Q' : World → Prop}

theorem Pays.append {w : World} {r : List Payment} (h1 : Pays replies w l w1) (h2 : Pays replies w1 r w2) :
    Pays replies w (l ++ r) w2 := by
  induction h1 with
  | done w => exact h2
  | write s _ ih => exact .write s (ih h2)
  | skip dst i _ ih => exact .skip dst i (ih h2)
  | pay p hok hheld _ ih => exact .pay p hok hheld (ih h2)

def routeShares (amount totalStakeWeight : Nat) : List StakeRoute → Nat → List Nat
  | [], _ => []
  | r :: rest, distributed =>
    let share := if Idle r then 0
      else if rest.isEmpty then amount - distributed else amount * r.weightBps / totalStakeWeight
    share :: routeShares amount totalStakeWeight rest (distributed + share)

/-- The payments of the routes from the `i`-th on. -/
def routePayments : List StakeRoute → List Nat → Nat → List Payment
  | r :: routes, share :: shares, i => ⟨r.pool, share, 4 + i⟩ :: routePayments routes shares (i + 1)
  | _, _, _ => []

abbrev Routed (c : Settings) : Prop := 0 < c.stakeRoutes.length ∧ 0 < c.totalStakeWeight

/-- What each registered route is paid of `amount`. -/
def stakeShares (c : Settings) (amount : Nat) : List Nat :=
  if Routed c then routeShares amount c.totalStakeWeight c.stakeRoutes 0 else c.stakeRoutes.map fun _ => 0

def stakePayments (c : Settings) (amount : Nat) : List Payment :=
  if amount = 0 then []
  else if Routed c then routePayments c.stakeRoutes (stakeShares c amount) 0
  else if c.stakePool ≠ 0 then [⟨c.stakePool, amount, 4⟩]
  else [⟨c.treasuryWallet, amount, 4⟩]

/-- What a distribution of these parts pays. -/
def payments (c : Settings) (parts : Shares) : List Payment :=
  [⟨c.bbbWallet, parts.bbbAmount, 0⟩, ⟨c.getWallet, parts.getForwarded, 1⟩,
    ⟨c.stakerVault, parts.stakerAmount, 2⟩, ⟨c.treasuryWallet, parts.treasuryAmount, 3⟩]
    ++ stakePayments c parts.feeToStakeAmount

/-! ## What the routes are paid -/

theorem routeShares_concat (init : List StakeRoute) (last : StakeRoute) (distributed : Nat) :
    routeShares amount total (init ++ [last]) distributed = init.map (floorShare amount total)
      ++ [if Idle last then 0 else amount - (distributed + earlierShares amount total init)] := by
  induction init generalizing distributed with
  | nil => rfl
  | cons r init ih =>
    have hmore : (init ++ [last]).isEmpty = false := by
      cases init <;> rfl
    rw [List.cons_append, routeShares, hmore, if_neg Bool.false_ne_true, ih, List.map_cons, List.cons_append,
      Nat.add_assoc]
    rfl

theorem routeShares_length (routes : List StakeRoute) (distributed : Nat) :
    (routeShares amount total routes distributed).length = routes.length := by
  induction routes generalizing distributed with
  | nil => rfl
  | cons r rest ih => rw [routeShares, List.length_cons, ih, List.length_cons]

theorem routeShares_zero (routes : List StakeRoute) (distributed : Nat) :
    ∀ share ∈ routeShares 0 total routes distributed, share = 0 := by
  induction routes generalizing distributed with
  | nil => exact fun _ hshare => nomatch hshare
  | cons r rest ih =>
    intro share hshare
    rcases List.mem_cons.mp hshare with rfl | hrest
    · rw [Nat.zero_sub, Nat.zero_mul, Nat.zero_div, ite_self, ite_self]
    · exact ih _ share hrest

theorem paid_routePayments {shares : List Nat} (i : Nat) (h : shares.length = routes.length) :
    paid (routePayments routes shares i) = shares.sum := by
  induction routes generalizing shares i with
  | nil =>
    rw [List.length_eq_zero_iff.mp h]
    rfl
  | cons r rest ih =>
    cases shares with
    | nil => cases h
    | cons share shares =>
      show share + paid (routePayments rest shares (i + 1)) = (share :: shares).sum
      rw [ih (i + 1) (Nat.succ.inj h), List.sum_cons]

/-! ## A distribution makes its payments -/

/-- What a payment of a distribution leaves as it was. -/
structure Kept (s s' : State) : Prop where
  settings : settings s' = settings s
  grantPoolBalance : s'.grantPoolBalance = s.grantPoolBalance
  totalIncentives : s'.totalIncentivesDistributed = s.totalIncentivesDistributed
  totalLPBoost : s'.totalLPBoostDistributed = s.totalLPBoostDistributed
  totalGrants : s'.totalGrantsDistributed = s.totalGrantsDistributed

theorem Kept.refl (s : State) : Kept s s := ⟨rfl, rfl, rfl, rfl, rfl⟩

theorem Kept.trans {t u : State} (h1 : Kept s t) (h2 : Kept t u) : Kept s u :=
  ⟨h2.settings.trans h1.settings, h2.grantPoolBalance.trans h1.grantPoolBalance,
    h2.totalIncentives.trans h1.totalIncentives, h2.totalLPBoost.trans h1.totalLPBoost,
    h2.totalGrants.trans h1.totalGrants⟩

theorem Kept.of_untouched {s' : State} (h : Untouched s s') : Kept s s' :=
  ⟨h.settings, congrArg Ledger.grantPoolBalance h.ledger, congrArg Ledger.totalIncentivesDistributed h.ledger,
    congrArg Ledger.totalLPBoostDistributed h.ledger, congrArg Ledger.totalGrantsDistributed h.ledger⟩

/-- Every account that is paid accepts. -/
def Accepts (replies : Replies) : Prop := ∀ i, (replies i).ok = true

/-- The errors of a distribution, and what each of them says: it was not `ready`, a counter had no `room`, or
    an account refused. -/
def Fault (replies : Replies) (ready room : Prop) : Revert → Prop
  | .enforcedPause => ¬ ready
  | .nothingToDistribute => ¬ ready
  | .overflow => ¬ room
  | .transferFailed _ => ¬ Accepts replies
  | _ => False

theorem Fault.absurd {ready room : Prop} {e : Revert} (h : Fault replies ready room e) (hready : ready)
    (hroom : room) (haccepts : Accepts replies) : False := by
  cases e with
  | enforcedPause => exact h hready
  | nothingToDistribute => exact h hready
  | overflow => exact h hroom
  | transferFailed label => exact h haccepts
  | _ => exact h

/-- The payments `l` were made from `w`, and nothing else of interest happened. -/
structure Made (replies : Replies) (w : World) (l : List Payment) (w' : World) : Prop where
  pays : Pays replies w l w'
  kept : Kept w.state w'.state
  held : w.holdings .native ≤ w'.holdings .native + paid l

variable {ready room : Prop} {dst : Address} {label : String} {w : World} {Q : World → Prop}

/-- Where they are covered, the payments `l` are made and `Q` holds after them, or a fault is to blame. -/
def Makes (replies : Replies) (ready room : Prop) (w : World) (l : List Payment) (Q : World → Prop)
    (x : Except Revert World) : Prop :=
  paid l ≤ w.holdings .native → Yields (fun w' => Made replies w l w' ∧ Q w') (Fault replies ready room) x

theorem paid_append (l l' : List Payment) : paid (l ++ l') = paid l + paid l' := by
  rw [paid, List.map_append, List.sum_append]
  rfl

theorem Made.append (h1 : Made replies w l w1) (h2 : Made replies w1 l' w2) : Made replies w (l ++ l') w2 := by
  have hheld := h1.held
  have hheld' := h2.held
  refine ⟨h1.pays.append h2.pays, h1.kept.trans h2.kept, ?_⟩
  rw [paid_append]
  omega

theorem Makes.bind {f : World → Except Revert World} (hx : Makes replies ready room w l Q x)
    (hf : ∀ w1 : World, Kept w.state w1.state → Q w1 → Makes replies ready room w1 l' Q' (f w1)) :
    Makes replies ready room w (l ++ l') Q' (x >>= f) := by
  intro hcovered
  rw [paid_append] at hcovered
  refine yields_bind (hx (by omega)) fun w1 h1 => ?_
  have hheld := h1.1.held
  exact (hf w1 h1.1.kept h1.2 (by omega)).mono (fun w2 h2 => ⟨h1.1.append h2.1, h2.2⟩) fun _ he => he

theorem makes_ok (h : Q w) : Makes replies ready room w [] Q (.ok w) :=
  fun _ => ⟨⟨.done w, .refl _, Nat.le_refl _⟩, h⟩

theorem Makes.skip (dst : Address) (i : Nat) (h : Makes replies ready room w l Q x) :
    Makes replies ready room w (⟨dst, 0, i⟩ :: l) Q x := by
  have hpaid : paid (⟨dst, 0, i⟩ :: l) = paid l := Nat.zero_add _
  intro hcovered
  rw [hpaid] at hcovered
  refine (h hcovered).mono (fun w' h' => ⟨⟨.skip dst i h'.1.pays, h'.1.kept, ?_⟩, h'.2⟩) fun _ he => he
  rw [hpaid]
  exact h'.1.held

theorem Makes.write (hs : Kept w.state s) (h : Makes replies ready room (w.write s) l Q x) :
    Makes replies ready room w l Q x := by
  intro hcovered
  exact (h hcovered).mono (fun _ h' => ⟨⟨.write s h'.1.pays, hs.trans h'.1.kept, h'.1.held⟩, h'.2⟩) fun _ he => he

theorem Makes.weaken (h : Makes replies ready room w l Q x) (hQ : ∀ w', Q w' → Q' w') :
    Makes replies ready room w l Q' x :=
  fun hcovered => (h hcovered).mono (fun w' h' => ⟨h'.1, hQ w' h'.2⟩) fun _ he => he

/-- Calls back only add to what is held. -/
theorem calls_hold (w : World) (calls : List (Msg × OpenCall)) :
    w.holdings .native ≤ (Trace.run play w calls).holdings .native := by
  refine Trace.run_invariant (fun w' : World => w.holdings .native ≤ w'.holdings .native) calls (Nat.le_refl _)
    fun w' n h => ?_
  rw [play]
  split
  · rename_i w2 hexec
    rw [execOpen, bind_iff] at hexec
    obtain ⟨s, -, hexec⟩ := hexec
    cases hexec
    rw [World.write_holdings, World.credit_same]
    omega
  · exact h

theorem paid_single (dst : Address) (amount i : Nat) : paid [⟨dst, amount, i⟩] = amount := Nat.add_zero _

/-- One payment: it is made, or the account refuses. -/
theorem safeTransfer_makes (i : Nat) (hdst : dst ≠ 0) :
    Makes replies ready room w [⟨dst, amount, i⟩] (fun w' => Untouched w.state w'.state)
      (safeTransfer dst (replies i) amount label w) := by
  intro hcovered
  rw [paid_single] at hcovered
  rw [safeTransfer]
  by_cases hzero : amount = 0
  · rw [if_pos (.inl hzero), hzero]
    exact ⟨⟨.skip dst i (.done w), .refl _, Nat.le_refl _⟩, .refl _⟩
  · rw [if_neg fun h => h.elim hzero hdst]
    cases hsend : send play (Revert.transferFailed label) .native (replies i) amount w with
    | ok w' =>
      obtain ⟨hok, hheld, rfl⟩ := send_ok_iff.mp hsend
      have hsame := calls_untouched (w.debit .native amount) (replies i).calls
      have hgrows := calls_hold (w.debit .native amount) (replies i).calls
      rw [World.debit_same] at hgrows
      refine ⟨⟨.pay ⟨dst, amount, i⟩ hok hheld (.done _), .of_untouched hsame, ?_⟩, hsame⟩
      rw [paid_single]
      omega
    | error e =>
      have hrefused : ¬ Accepts replies := by
        intro haccepts
        have hok : ∃ w', send play (Revert.transferFailed label) .native (replies i) amount w = .ok w' :=
          ⟨_, send_ok_iff.mpr ⟨haccepts i, hcovered, rfl⟩⟩
        obtain ⟨w', hok⟩ := hok
        cases hsend.symm.trans hok
      rw [send] at hsend
      split at hsend
      · cases hsend
      · rw [← Except.error.inj hsend]
        exact hrefused

/-- A stake payment counts for its chain. -/
theorem stakeShare_makes {chainId : Nat} (i : Nat) (hdst : dst ≠ 0)
    (hroom : room → w.state.chainStakeTotal chainId + amount < 2 ^ 256) : Makes replies ready room w [⟨dst, amount, i⟩]
      (fun w' => ∀ chain, w'.state.chainStakeTotal chain ≤ w.state.chainStakeTotal chain + amount)
      (stakeShare chainId dst (replies i) amount label w) := by
  intro hcovered
  rw [stakeShare]
  refine yields_bind (yields_addU_full fun hfull hr => ?_) fun total htotal => ?_
  · have := hroom hr
    omega
  · have hkept : Kept w.state { w.state with
        chainStakeTotal := Function.update w.state.chainStakeTotal chainId total } := ⟨rfl, rfl, rfl, rfl, rfl⟩
    refine ((safeTransfer_makes i hdst).write hkept).weaken (fun w' hsame chain => ?_) hcovered
    have hchains : w'.state.chainStakeTotal = Function.update w.state.chainStakeTotal chainId total :=
      congrArg Ledger.chainStakeTotal hsame.ledger
    rw [hchains, htotal]
    by_cases hchain : chain = chainId
    · rw [hchain, Function.update_self]
    · rw [Function.update_of_ne hchain]
      exact Nat.le_add_right _ _

/-- A share: the quotient, and for the last route what is left. -/
theorem routeShare_yields {last : Bool} (hleft : distributed ≤ amount) (hroom : room → amount * r.weightBps < 2 ^ 256) :
    Yields (fun share => share = if last then amount - distributed else amount * r.weightBps / total)
      (Fault replies ready room) (routeShare amount distributed total r last) := by
  rw [routeShare]
  cases last with
  | true => exact yields_subU hleft
  | false =>
    refine yields_bind (yields_mulU_full fun hfull hr => ?_) fun scaled hscaled => ?_
    · have := hroom hr
      omega
    · rw [hscaled]
      exact rfl

/-- What the routes before the last one are still to get. -/
def pendingShares (amount total : Nat) (routes : List StakeRoute) : Nat := earlierShares amount total routes.dropLast

theorem pendingShares_cons (r : StakeRoute) (rest : List StakeRoute)
    (h : distributed + pendingShares amount total (r :: rest) ≤ amount) :
    distributed + (if rest.isEmpty then 0 else floorShare amount total r)
      + pendingShares amount total rest ≤ amount := by
  cases rest with
  | nil => exact h
  | cons r' rest =>
    have hcons : pendingShares amount total (r :: r' :: rest)
        = floorShare amount total r + pendingShares amount total (r' :: rest) := rfl
    rw [List.isEmpty_cons, if_neg Bool.false_ne_true]
    omega

/-- **LOOP**: the routes are paid their shares, and the last subtraction has enough. -/
theorem routeLoop_makes {i : Nat} (hpools : ∀ r ∈ routes, r.pool ≠ 0) (htotal : w.state.totalStakeWeight = total)
    (hfit : distributed + pendingShares amount total routes ≤ amount)
    (hscaled : room → ∀ r ∈ routes, amount * r.weightBps < 2 ^ 256)
    (hchains : room → ∀ chain, w.state.chainStakeTotal chain + amount < 2 ^ 256 + distributed) :
    Makes replies ready room w (routePayments routes (routeShares amount total routes distributed) i)
      (fun _ => True) (routeLoop replies amount routes i distributed w) := by
  induction routes generalizing i distributed w with
  | nil => exact makes_ok trivial
  | cons r rest ih =>
    have hrest := pendingShares_cons r rest hfit
    have hpools' : ∀ r' ∈ rest, r'.pool ≠ 0 := fun r' hr' => hpools r' (List.mem_cons_of_mem r hr')
    have hscaled' : room → ∀ r' ∈ rest, amount * r'.weightBps < 2 ^ 256 :=
      fun hr r' hr' => hscaled hr r' (List.mem_cons_of_mem r hr')
    rw [routeLoop, routeShares, routePayments, htotal]
    by_cases hidle : Idle r
    · rw [if_pos hidle, if_pos hidle, Nat.add_zero]
      exact (ih hpools' htotal (by omega) hscaled' hchains).skip r.pool (4 + i)
    · rw [if_neg hidle, if_neg hidle]
      intro hcovered
      refine yields_bind (routeShare_yields (by omega) fun hr => hscaled hr r List.mem_cons_self)
        fun share hshare => ?_
      rw [← hshare] at hcovered ⊢
      -- The last route takes the rest, and then nothing is pending.
      have hnext : distributed + share + pendingShares amount total rest ≤ amount := by
        rw [floorShare, if_neg hidle] at hrest
        rw [hshare]
        cases hempty : rest.isEmpty with
        | true =>
          have hnil : rest = [] := List.isEmpty_iff.mp hempty
          have hnone : pendingShares amount total rest = 0 := by
            rw [hnil]
            rfl
          rw [hempty, if_pos rfl] at hrest
          rw [if_pos rfl]
          omega
        | false =>
          rw [hempty, if_neg Bool.false_ne_true] at hrest
          rw [if_neg Bool.false_ne_true]
          exact hrest
      split_ifs with hpos
      · have hstake : room → w.state.chainStakeTotal r.chainId + share < 2 ^ 256 := by
          intro hr
          have := hchains hr r.chainId
          omega
        refine (stakeShare_makes (4 + i) (hpools r List.mem_cons_self) hstake).bind (fun w1 h1 hstaked => ?_) hcovered
        have hsame : w1.state.totalStakeWeight = w.state.totalStakeWeight :=
          congrArg Settings.totalStakeWeight h1.settings
        refine ih hpools' (hsame.trans htotal) hnext hscaled' fun hr chain => ?_
        have hbefore := hchains hr chain
        have hafter := hstaked chain
        omega
      · have hzero : share = 0 := by omega
        have hloop := ih (w := w) (i := i + 1) hpools' htotal hnext hscaled' fun hr chain => by
          have := hchains hr chain
          omega
        rw [hzero] at hloop hcovered ⊢
        exact hloop.skip r.pool (4 + i) hcovered

theorem pendingShares_fit {c : Settings} (hc : c.Valid) (hrouted : Routed c) :
    pendingShares amount c.totalStakeWeight c.stakeRoutes ≤ amount := by
  refine earlierShares_fit hrouted.2 ?_
  have hsplit := List.dropLast_append_getLast (List.ne_nil_of_length_pos hrouted.1)
  have hweights := totalWeight_parts c.stakeRoutes
  have hactive := activeWeight_append c.stakeRoutes.dropLast [c.stakeRoutes.getLast
    (List.ne_nil_of_length_pos hrouted.1)]
  rw [hsplit] at hactive
  rw [hc.weights, hweights]
  omega

theorem routeStake_makes (hc : (settings w.state).Valid) (hpos : 0 < amount)
    (hscaled : room → amount * 2 ^ 16 < 2 ^ 256)
    (hchains : room → ∀ chain, w.state.chainStakeTotal chain + amount < 2 ^ 256)
    (htreasury : room → w.state.totalTreasury + amount < 2 ^ 256) :
    Makes replies ready room w (stakePayments (settings w.state) amount) (fun _ => True)
      (routeStake m replies amount w) := by
  rw [routeStake, stakePayments, if_neg (by omega)]
  by_cases hrouted : Routed (settings w.state)
  · have hstate : 0 < w.state.stakeRoutes.length ∧ 0 < w.state.totalStakeWeight := hrouted
    have hfit := @pendingShares_fit amount _ hc hrouted
    rw [if_pos hrouted, stakeShares, if_pos hrouted]
    simp only [if_pos hstate]
    refine routeLoop_makes hc.pools rfl (by omega) (fun hr r hroute => ?_) fun hr chain => hchains hr chain
    exact Nat.lt_of_le_of_lt (Nat.mul_le_mul_left amount (Nat.le_of_lt (hc.weightsFit r hroute))) (hscaled hr)
  · have hstate : ¬ (0 < w.state.stakeRoutes.length ∧ 0 < w.state.totalStakeWeight) := hrouted
    rw [if_neg hrouted]
    simp only [if_neg hstate]
    by_cases hpool : w.state.stakePool ≠ 0
    · have hpool' : (settings w.state).stakePool ≠ 0 := hpool
      rw [if_pos hpool, if_pos hpool']
      exact (stakeShare_makes 4 hpool fun hr => hchains hr m.chainid).weaken fun _ _ => trivial
    · have hpool' : ¬ (settings w.state).stakePool ≠ 0 := hpool
      rw [if_neg hpool, if_neg hpool']
      intro hcovered
      refine yields_bind (yields_addU_full fun hfull hr => ?_) fun total htotal => ?_
      · have := htreasury hr
        omega
      · have hkept : Kept w.state { w.state with totalTreasury := total } := ⟨rfl, rfl, rfl, rfl, rfl⟩
        exact ((safeTransfer_makes 4 hc.treasuryWallet).write hkept).weaken (fun _ _ => trivial) hcovered

/-! ## The parts -/

/-- **PARTS** of a distributed balance. -/
structure Split (c : Settings) (balance boost : Nat) (parts : Shares) : Prop where
  bbb : parts.bbbAmount = balance * c.bbbBps / totalBps
  get : parts.getAmount = balance * c.getBps / totalBps
  staker : parts.stakerAmount = balance * c.stakerBps / totalBps
  all : parts.bbbAmount + parts.getAmount + parts.stakerAmount + parts.treasuryAmount + parts.feeToStakeAmount = balance
  feeToStake : parts.feeToStakeAmount
    = (parts.treasuryAmount + parts.feeToStakeAmount) * c.feeToStakeBps / totalBps
  forwarded : parts.getForwarded + parts.grantsAmount = parts.getAmount
  grants : parts.grantsAmount + parts.getAmount * c.incentivesBps / totalBps + parts.lpBoostAmount = parts.getAmount
  lpBoost : parts.lpBoostAmount = parts.getAmount * c.lpBoostBps / totalBps
  incentives : parts.incentivesAmount
    = min parts.getAmount (parts.getAmount * c.incentivesBps * boost / (totalBps * totalBps))

theorem bps_fit {x b c : Nat} (h : a + b + c ≤ totalBps) :
    x * a / totalBps + x * b / totalBps + x * c / totalBps ≤ x := by
  have hle := Nat.mul_le_mul_left x h
  rw [Nat.mul_add, Nat.mul_add] at hle
  rw [totalBps] at hle ⊢
  omega

theorem bps_le {x : Nat} (h : a ≤ totalBps) : x * a / totalBps ≤ x :=
  Nat.div_le_of_le_mul (by
    rw [Nat.mul_comm totalBps]
    exact Nat.mul_le_mul_left x h)

/-- Parts in basis points, scaled by the boost, are far from the end of a word. -/
def Scaled (balance : Nat) : Prop := balance * (totalBps * maxBoost) < 2 ^ 256

theorem Scaled.mul {balance x : Nat} (h : Scaled balance) (hx : x ≤ balance) (ha : a ≤ totalBps * maxBoost) :
    x * a < 2 ^ 256 :=
  Nat.lt_of_le_of_lt (Nat.mul_le_mul hx ha) h

theorem splitShares_yields (hs : (settings s).Valid) {balance : Nat} (hboost : boost ≤ maxBoost)
    (hroom : room → Scaled balance) :
    Yields (fun parts => Split (settings s) balance boost parts) (Fault replies ready room)
      (splitShares balance boost s) := by
  have hfit : balance * s.bbbBps / totalBps + balance * s.getBps / totalBps + balance * s.stakerBps / totalBps
      ≤ balance := bps_fit hs.split
  have hsplit : s.bbbBps + s.getBps + s.stakerBps ≤ totalBps := hs.split
  have hsubSplit : s.incentivesBps + s.lpBoostBps ≤ totalBps := hs.subSplit
  have hstakeBps : s.feeToStakeBps ≤ totalBps := Nat.le_trans hs.feeToStake (by decide)
  have hbig : totalBps ≤ totalBps * maxBoost := by decide
  -- No product is larger than the balance with every share and the boost at their largest.
  have hmul : ∀ x a, x ≤ balance → a ≤ totalBps * maxBoost →
      Yields (fun c => c = x * a) (Fault replies ready room) (mulU .overflow x a) := by
    intro x a hx ha
    refine yields_mulU_full fun hfull hr => ?_
    have := (hroom hr).mul hx ha
    omega
  rw [splitShares]
  refine yields_bind (hmul _ _ (Nat.le_refl _) (by omega)) fun bbb hbbb => ?_
  refine yields_bind (hmul _ _ (Nat.le_refl _) (by omega)) fun get hget => ?_
  refine yields_bind (hmul _ _ (Nat.le_refl _) (by omega)) fun staker hstaker => ?_
  subst hbbb hget hstaker
  generalize hbbb : balance * s.bbbBps / totalBps = bbbAmount at hfit ⊢
  generalize hget : balance * s.getBps / totalBps = getAmount at hfit ⊢
  generalize hstaker : balance * s.stakerBps / totalBps = stakerAmount at hfit ⊢
  refine yields_bind (yields_subU (by omega)) fun afterBbb hafterBbb => ?_
  refine yields_bind (yields_subU (by omega)) fun afterGet hafterGet => ?_
  refine yields_bind (yields_subU (by omega)) fun treasuryRaw hraw => ?_
  refine yields_bind (hmul _ _ (by omega) (by omega)) fun feeToStake hstake => ?_
  subst hstake
  have hstakeFit : treasuryRaw * s.feeToStakeBps / totalBps ≤ treasuryRaw := bps_le hstakeBps
  generalize hstake : treasuryRaw * s.feeToStakeBps / totalBps = feeToStakeAmount at hstakeFit ⊢
  refine yields_bind (yields_subU hstakeFit) fun treasuryAmount htreasury => ?_
  refine yields_bind (hmul _ _ (by omega) (by omega)) fun incentives hincentives => ?_
  subst hincentives
  have hboosted : Yields (fun c => c = getAmount * s.incentivesBps * boost) (Fault replies ready room)
      (mulU .overflow (getAmount * s.incentivesBps) boost) := by
    refine yields_mulU_full fun hfull hr => ?_
    rw [Nat.mul_assoc] at hfull
    have := (hroom hr).mul (show getAmount ≤ balance by omega)
      (Nat.mul_le_mul (show s.incentivesBps ≤ totalBps by omega) hboost)
    omega
  refine yields_bind hboosted fun boosted hboosted => ?_
  refine yields_bind (hmul _ _ (by omega) (by omega)) fun lpBoost hlpBoost => ?_
  subst hboosted hlpBoost
  have hsub : getAmount * s.incentivesBps / totalBps + getAmount * s.lpBoostBps / totalBps
      + getAmount * 0 / totalBps ≤ getAmount := bps_fit hs.subSplit
  rw [Nat.mul_zero, Nat.zero_div, Nat.add_zero] at hsub
  generalize hraw' : getAmount * s.incentivesBps / totalBps = incentivesRaw at hsub ⊢
  generalize hlpBoost : getAmount * s.lpBoostBps / totalBps = lpBoostAmount at hsub ⊢
  refine yields_bind (yields_subU (by omega)) fun afterIncentives hafterIncentives => ?_
  refine yields_bind (yields_subU (by omega)) fun grantsAmount hgrants => ?_
  refine yields_bind (yields_subU (by omega)) fun getForwarded hforwarded => ?_
  have hwhole : treasuryAmount + feeToStakeAmount = treasuryRaw := by omega
  refine ⟨hbbb.symm, hget.symm, hstaker.symm, ?_, ?_, ?_, ?_, hlpBoost.symm, ?_⟩
  · show bbbAmount + getAmount + stakerAmount + treasuryAmount + feeToStakeAmount = balance
    omega
  · show feeToStakeAmount = (treasuryAmount + feeToStakeAmount) * s.feeToStakeBps / totalBps
    rw [hwhole, hstake]
  · show getForwarded + grantsAmount = getAmount
    omega
  · show grantsAmount + getAmount * s.incentivesBps / totalBps + lpBoostAmount = getAmount
    omega
  · show (if getAmount < getAmount * s.incentivesBps * boost / (totalBps * totalBps) then getAmount
      else getAmount * s.incentivesBps * boost / (totalBps * totalBps)) = _
    split
    · rename_i hlt
      exact (Nat.min_eq_left (Nat.le_of_lt hlt)).symm
    · rename_i hle
      exact (Nat.min_eq_right (Nat.not_lt.mp hle)).symm

theorem paid_stakePayments_le {c : Settings} (hc : c.Valid) : paid (stakePayments c amount) ≤ amount := by
  rw [stakePayments]
  split
  · exact Nat.zero_le _
  split
  · rename_i hrouted
    have hsplit := List.dropLast_append_getLast (List.ne_nil_of_length_pos hrouted.1)
    have hfit := @pendingShares_fit amount c hc hrouted
    have hsum : (c.stakeRoutes.dropLast.map (floorShare amount c.totalStakeWeight)).sum
        = pendingShares amount c.totalStakeWeight c.stakeRoutes := rfl
    have hshares : stakeShares c amount = routeShares amount c.totalStakeWeight c.stakeRoutes 0 := by
      rw [stakeShares, if_pos hrouted]
    rw [hshares, paid_routePayments 0 (routeShares_length _ _), ← hsplit, routeShares_concat, List.sum_append,
      List.sum_singleton, hsum, Nat.zero_add]
    have hearlier : earlierShares amount c.totalStakeWeight c.stakeRoutes.dropLast
        = pendingShares amount c.totalStakeWeight c.stakeRoutes := rfl
    rw [hearlier]
    split <;> omega
  · split
    · exact Nat.le_of_eq (paid_single _ _ _)
    · exact Nat.le_of_eq (paid_single _ _ _)

/-- The counters that only a distribution writes. -/
def lifetimeCounters (s : State) : List Nat := [
  s.grantPoolBalance, s.totalDistributed, s.totalBBB, s.totalGET, s.totalStaker, s.totalTreasury, s.totalFeeToStake,
  s.totalIncentivesDistributed, s.totalLPBoostDistributed, s.totalGrantsDistributed, s.monthlyVolume]

/-- **SCARCE**: the counters that real value feeds have room for one more distribution of the balance. -/
structure Scarce (s : State) (balance : Nat) : Prop where
  scaled : Scaled balance
  counters : ∀ x ∈ lifetimeCounters s, x + balance < 2 ^ 256
  chains : ∀ chain, s.chainStakeTotal chain + balance < 2 ^ 256
  count : s.distributionCount + 1 < 2 ^ 256

theorem Scarce.recorded {balance : Nat} (h : Scarce s balance) (hsplit : Split (settings s) balance boost parts) :
    ∀ x ∈ recordedCounters balance parts s, x < 2 ^ 256 := by
  have hall := hsplit.all
  have hgrants := hsplit.grants
  have hincentives : parts.incentivesAmount ≤ parts.getAmount := by
    rw [hsplit.incentives]
    exact Nat.min_le_left _ _
  have hgrantsLe : parts.grantsAmount ≤ parts.getAmount :=
    Nat.le_trans (Nat.le_add_right _ _) (Nat.le_trans (Nat.le_add_right _ _) (Nat.le_of_eq hgrants))
  have hlpBoost : parts.lpBoostAmount ≤ parts.getAmount := Nat.le_trans (Nat.le_add_left _ _) (Nat.le_of_eq hgrants)
  clear hgrants
  have hcount := h.count
  have hcounters := h.counters
  simp only [lifetimeCounters, List.forall_mem_cons] at hcounters
  simp only [recordedCounters, List.forall_mem_cons]
  refine ⟨?_, ?_, ?_, ?_, ?_, ?_, ?_, ?_, ?_, ?_, ?_, ?_, fun _ hx => absurd hx List.not_mem_nil⟩ <;> omega

/-- What a successful distribution did. -/
structure Distributed (replies : Replies) (w w' : World) (boost : Nat) (parts : Shares) : Prop where
  computed : computeBoost w.state = .ok boost
  split : Split (settings w.state) (w.holdings .native) boost parts
  pays : Pays replies w (payments (settings w.state) parts) w'
  grantPoolBalance : w'.state.grantPoolBalance = w.state.grantPoolBalance + parts.grantsAmount
  totalIncentives : w'.state.totalIncentivesDistributed = w.state.totalIncentivesDistributed + parts.incentivesAmount
  totalLPBoost : w'.state.totalLPBoostDistributed = w.state.totalLPBoostDistributed + parts.lpBoostAmount
  totalGrants : w'.state.totalGrantsDistributed = w.state.totalGrantsDistributed + parts.grantsAmount

/-- A distribution is called while it may be, and has something to distribute. -/
def Ready (w : World) : Prop := w.state.paused = false ∧ 0 < w.holdings .native

/-- No arithmetic of a distribution reaches the end of a word. -/
def Room (w : World) : Prop := TagsFit w.state ∧ Scarce w.state (w.holdings .native)

/-- **DISTRIBUTION**: it makes the payments of its parts, and no subtraction underflows. -/
theorem distribute_pays (hw : Configured w.state) :
    Yields (fun w' => ∃ boost parts, Distributed replies w w' boost parts) (Fault replies (Ready w) (Room w))
      (distribute m replies w) := by
  rw [distribute]
  refine yields_revertIf_bind (fun hpaused hready => ?_) fun _ => ?_
  · exact Bool.false_ne_true (hready.1.symm.trans hpaused)
  refine yields_revertIf_bind (fun hnone hready => ?_) fun _ => ?_
  · exact Nat.ne_of_gt hready.2 hnone
  refine yields_bind (computeBoost_yields hw fun htags hroom => htags hroom.1) fun boost hboost => ?_
  refine yields_bind (splitShares_yields hw.valid (computeBoost_range hw hboost).2 fun hroom => hroom.2.scaled)
    fun parts hparts => ?_
  refine yields_bind (recordShares_yields fun hfull hroom => hfull (hroom.2.recorded hparts)) fun s hs => ?_
  have hvalid : (settings s).Valid := by
    rw [hs.settings]
    exact hw.valid
  have hall := hparts.all
  have hforwarded := hparts.forwarded
  have hpayments : Makes replies (Ready w) (Room w) (w.write s) (payments (settings s) parts) (fun _ => True) (do
      let w ← safeTransfer s.bbbWallet (replies 0) parts.bbbAmount "BBB" (w.write s)
      let w ← safeTransfer w.state.getWallet (replies 1) parts.getForwarded "GET" w
      let w ← safeTransfer w.state.stakerVault (replies 2) parts.stakerAmount "Staker" w
      let w ← safeTransfer w.state.treasuryWallet (replies 3) parts.treasuryAmount "Treasury" w
      if 0 < parts.feeToStakeAmount then routeStake m replies parts.feeToStakeAmount w else .ok w) := by
    -- what a recipient calls back leaves the settings alone
    refine (safeTransfer_makes 0 hvalid.bbbWallet).bind fun w1 _ h1 => ?_
    have hget : w1.state.getWallet = s.getWallet := congrArg Settings.getWallet h1.settings
    rw [hget]
    refine (safeTransfer_makes 1 hvalid.getWallet).bind fun w2 _ h2 => ?_
    have h12 : Untouched s w2.state := h1.trans h2
    have hstaker : w2.state.stakerVault = s.stakerVault := congrArg Settings.stakerVault h12.settings
    rw [hstaker]
    refine (safeTransfer_makes 2 hvalid.stakerVault).bind fun w3 _ h3 => ?_
    have h13 := h12.trans h3
    have htreasury : w3.state.treasuryWallet = s.treasuryWallet := congrArg Settings.treasuryWallet h13.settings
    rw [htreasury]
    refine (safeTransfer_makes 3 hvalid.treasuryWallet).bind fun w4 _ h4 => ?_
    have h14 := h13.trans h4
    split
    · rename_i hpos
      have hchains : w4.state.chainStakeTotal = w.state.chainStakeTotal :=
        (congrArg Ledger.chainStakeTotal h14.ledger).trans hs.chainStakeTotal
      have htotal : w4.state.totalTreasury = w.state.totalTreasury + parts.treasuryAmount :=
        (congrArg Ledger.totalTreasury h14.ledger).trans hs.totalTreasury
      rw [← h14.settings]
      rw [← h14.settings] at hvalid
      refine routeStake_makes hvalid hpos (fun hroom => ?_) (fun hroom chain => ?_) fun hroom => ?_
      · exact hroom.2.scaled.mul (by omega) (by decide)
      · have := hroom.2.chains chain
        rw [hchains]
        omega
      · have := hroom.2.counters w.state.totalTreasury (by simp [lifetimeCounters])
        rw [htotal]
        omega
    · rename_i hnone
      have hzero : parts.feeToStakeAmount = 0 := by omega
      rw [hzero, stakePayments, if_pos rfl]
      exact makes_ok trivial
  have hcovered : paid (payments (settings s) parts) ≤ (w.write s).holdings .native := by
    have hstake := @paid_stakePayments_le parts.feeToStakeAmount (settings s) hvalid
    show parts.bbbAmount + (parts.getForwarded + (parts.stakerAmount + (parts.treasuryAmount
      + paid (stakePayments (settings s) parts.feeToStakeAmount)))) ≤ w.holdings .native
    omega
  refine (hpayments hcovered).mono (fun w' h' => ⟨boost, parts, hboost, hparts, ?_, ?_, ?_, ?_, ?_⟩) fun _ he => he
  · rw [← hs.settings]
    exact .write s h'.1.pays
  · exact h'.1.kept.grantPoolBalance.trans hs.grantPoolBalance
  · exact h'.1.kept.totalIncentives.trans hs.totalIncentives
  · exact h'.1.kept.totalLPBoost.trans hs.totalLPBoost
  · exact h'.1.kept.totalGrants.trans hs.totalGrants

/-! ## When a distribution conserves the balance -/

/-- What is staked of the balance, in units of a basis point. -/
def stakedBps (c : Settings) (balance : Nat) : Nat :=
  (balance - balance * c.bbbBps / totalBps - balance * c.getBps / totalBps - balance * c.stakerBps / totalBps)
    * c.feeToStakeBps

theorem Split.staked {c : Settings} {balance : Nat} (h : Split c balance boost parts) :
    parts.feeToStakeAmount = stakedBps c balance / totalBps := by
  have hall := h.all
  rw [h.feeToStake, stakedBps, ← h.bbb, ← h.get, ← h.staker]
  congr 2
  omega

/-- No route is to be paid and none has weight; or the last one is to be paid, and the weight of the others takes no
    whole unit from a route before it; or it is not, only routes to be paid have weight, and their fractions of the
    amount are whole. -/
def RoutesSettled (c : Settings) (amount : Nat) : Prop :=
  (c.totalStakeWeight = 0 ∧ ∀ r ∈ c.stakeRoutes, r.active = false)
  ∨ (0 < c.totalStakeWeight ∧ ∃ last, c.stakeRoutes.getLast? = some last
      ∧ (last.active = true ∧ (∀ r ∈ c.stakeRoutes.dropLast, r.active = true →
            amount * r.weightBps ≤ activeWeight c.stakeRoutes * (amount * r.weightBps / c.totalStakeWeight + 1))
        ∨ last.active = false ∧ idleWeight c.stakeRoutes = 0
          ∧ ∀ r ∈ c.stakeRoutes, r.active = true → c.totalStakeWeight ∣ amount * r.weightBps))

/-- The boost adds at most one unit to the incentives, or all of the GET part does. -/
def BoostSettled (c : Settings) (balance boost : Nat) : Prop :=
  let getAmount := balance * c.getBps / totalBps
  let incentives := getAmount * c.incentivesBps
  incentives * boost / (totalBps * totalBps) ≤ incentives / totalBps + 1 ∨ getAmount ≤ incentives / totalBps + 1

/-- **SETTLED**: nothing is staked, or the routes are settled; and the boost is. -/
structure Settled (s : State) (balance : Nat) : Prop where
  stake : stakedBps (settings s) balance < totalBps
    ∨ RoutesSettled (settings s) (stakedBps (settings s) balance / totalBps)
  boost : ∀ boost, computeBoost s = .ok boost → BoostSettled (settings s) balance boost

/-- The share of a route is the fraction its weight is of the active weight, up to rounding. -/
def Proportional (routes : List StakeRoute) (amount : Nat) (r : StakeRoute) (share : Nat) : Prop :=
  activeWeight routes * share ≤ amount * r.weightBps + activeWeight routes * routes.length
  ∧ amount * r.weightBps ≤ activeWeight routes * share + activeWeight routes

/-- **CONSERVED**: what a distribution of `balance` from `s` to `s'` is for. -/
structure Conserved (s s' : State) (balance : Nat) (parts : Shares) : Prop where
  shares : parts.bbbAmount + parts.getAmount + parts.stakerAmount + parts.treasuryAmount + parts.feeToStakeAmount
    = balance
  paidOut : paid (payments (settings s) parts) + parts.grantsAmount = balance
  pool : s'.grantPoolBalance = s.grantPoolBalance + parts.grantsAmount
  stake : (∃ r ∈ s.stakeRoutes, r.active = true) →
    (stakeShares (settings s) parts.feeToStakeAmount).sum = parts.feeToStakeAmount
  fraction : ∀ (i : Nat) (r : StakeRoute) (share : Nat), s.stakeRoutes[i]? = some r → r.active = true →
    (stakeShares (settings s) parts.feeToStakeAmount)[i]? = some share →
    Proportional s.stakeRoutes parts.feeToStakeAmount r share
  recorded : ∃ rounding ≤ 1,
    s'.totalIncentivesDistributed + s'.totalLPBoostDistributed + s'.totalGrantsDistributed
      = s.totalIncentivesDistributed + s.totalLPBoostDistributed + s.totalGrantsDistributed
        + parts.getAmount + rounding

section Routes

variable {init : List StakeRoute} {last : StakeRoute}

theorem sum_routeShares (htotal : 0 < total) (hlast : ¬ Idle last) (hfit : activeWeight init ≤ total) :
    (routeShares amount total (init ++ [last]) 0).sum = amount := by
  have hle := @earlierShares_fit amount total htotal init hfit
  have hsum : (init.map (floorShare amount total)).sum = earlierShares amount total init := rfl
  rw [routeShares_concat, List.sum_append, List.sum_singleton, if_neg hlast, hsum]
  omega

theorem sum_routeShares_idle (hlast : Idle last) :
    (routeShares amount total (init ++ [last]) 0).sum = earlierShares amount total init := by
  rw [routeShares_concat, List.sum_append, List.sum_singleton, if_pos hlast]
  rfl

theorem activeWeight_concat : activeWeight (init ++ [last])
    = activeWeight init + if Idle last then 0 else last.weightBps := by
  rw [activeWeight_append]
  rfl

/-- An earlier route gets the floor of its fraction. -/
theorem earlier_proportional {routes : List StakeRoute} (hactive : ¬ Idle r) (hfit : activeWeight routes ≤ total)
    (hnear : amount * r.weightBps ≤ activeWeight routes * (amount * r.weightBps / total + 1)) :
    Proportional routes amount r (floorShare amount total r) := by
  have hle := @floorShare_le amount total r
  rw [if_neg hactive] at hle
  have hscaled := Nat.mul_le_mul_right (floorShare amount total r) hfit
  rw [floorShare, if_neg hactive] at hle hscaled ⊢
  exact ⟨by omega, hnear⟩

/-- The last route gets its fraction, and what the floors of the earlier ones left. -/
theorem last_proportional (hlast : ¬ Idle last) (htotal : 0 < total) (hfit : activeWeight (init ++ [last]) ≤ total)
    (hnear : ∀ r ∈ init, ¬ Idle r →
      amount * r.weightBps ≤ activeWeight (init ++ [last]) * (amount * r.weightBps / total + 1)) :
    Proportional (init ++ [last]) amount last (amount - earlierShares amount total init) := by
  have hactive : activeWeight (init ++ [last]) = activeWeight init + last.weightBps := by
    rw [activeWeight_concat, if_neg hlast]
  have hle := @earlierShares_le amount total init
  have hlt := le_earlierShares hnear
  have hscaled := Nat.mul_le_mul_right (earlierShares amount total init) hfit
  have hpaid := @earlierShares_fit amount total htotal init (by omega)
  rw [Proportional, List.length_append, List.length_singleton]
  rw [hactive] at hlt hscaled ⊢
  generalize earlierShares amount total init = earlier at hle hlt hscaled hpaid ⊢
  obtain ⟨left, rfl⟩ := Nat.exists_eq_add_of_le hpaid
  rw [Nat.add_sub_cancel_left]
  have hwhole : (activeWeight init + last.weightBps) * (earlier + left)
      = (earlier + left) * activeWeight init + (earlier + left) * last.weightBps := by
    rw [Nat.mul_comm, Nat.mul_add]
  rw [Nat.mul_add] at hwhole
  rw [Nat.mul_add _ init.length 1]
  constructor <;> omega

/-- The earlier routes are paid the whole amount exactly when no route passed over has weight and no fraction is
    broken. -/
theorem earlierShares_whole (hamount : 0 < amount) (htotal : 0 < total) {routes : List StakeRoute} {idle : Nat}
    (hparts : total = activeWeight routes + idle) : earlierShares amount total routes = amount
      ↔ idle = 0 ∧ ∀ r ∈ routes, ¬ Idle r → total ∣ amount * r.weightBps := by
  have hrest := @earlierShares_rest amount total routes
  constructor
  · intro hwhole
    rw [hwhole, hparts, Nat.add_mul, Nat.mul_comm amount] at hrest
    have hidle : idle * amount = 0 := by omega
    have hidle' : idle = 0 := (Nat.mul_eq_zero.mp hidle).resolve_right (Nat.ne_of_gt hamount)
    refine ⟨hidle', fun r hr hactive => ?_⟩
    rw [← hparts] at hrest
    have hsum : (routes.map fun r => if Idle r then 0 else amount * r.weightBps % total).sum = 0 := by omega
    have hzero := List.sum_eq_zero_iff.mp hsum _ (List.mem_map.mpr ⟨r, hr, rfl⟩)
    rw [if_neg hactive] at hzero
    exact Nat.dvd_of_mod_eq_zero hzero
  · rintro ⟨rfl, hdvd⟩
    have hsum : (routes.map fun r => if Idle r then 0 else amount * r.weightBps % total).sum = 0 := by
      refine List.sum_eq_zero fun x hx => ?_
      obtain ⟨r, hr, rfl⟩ := List.mem_map.mp hx
      split
      · rfl
      · rename_i hactive
        exact Nat.mod_eq_zero_of_dvd (hdvd r hr hactive)
    rw [hsum, Nat.add_zero, ← Nat.add_zero (activeWeight routes), ← hparts, Nat.mul_comm amount] at hrest
    exact Nat.eq_of_mul_eq_mul_left htotal hrest

end Routes

/-- What is staked is paid, in proportion. -/
structure RoutesConserved (c : Settings) (amount : Nat) : Prop where
  paidOut : paid (stakePayments c amount) = amount
  stake : (∃ r ∈ c.stakeRoutes, r.active = true) → (stakeShares c amount).sum = amount
  fraction : ∀ (i : Nat) (r : StakeRoute) (share : Nat), c.stakeRoutes[i]? = some r → r.active = true →
    (stakeShares c amount)[i]? = some share → Proportional c.stakeRoutes amount r share

section Routed

variable {c : Settings} {init : List StakeRoute} {last : StakeRoute}

theorem not_idle (hc : c.Valid) (hr : r ∈ c.stakeRoutes) (hactive : r.active = true) : ¬ Idle r := by
  rintro (hfalse | hpool)
  · exact absurd hactive (by rw [hfalse]; exact Bool.false_ne_true)
  · exact hc.pools r hr hpool

theorem at_last {i : Nat} (h : [last][i]? = some r) : i = 0 ∧ last = r := by
  cases i with
  | zero => exact ⟨rfl, Option.some.inj h⟩
  | succ i => exact nomatch h

theorem routed_shares (hrouted : Routed c) (hinit : c.stakeRoutes = init ++ [last]) (amount : Nat) :
    stakeShares c amount = init.map (floorShare amount c.totalStakeWeight)
      ++ [if Idle last then 0 else amount - earlierShares amount c.totalStakeWeight init] := by
  rw [stakeShares, if_pos hrouted, hinit, routeShares_concat, Nat.zero_add]

theorem routed_paid (hrouted : Routed c) (hpos : 0 < amount) :
    paid (stakePayments c amount) = (stakeShares c amount).sum := by
  rw [stakePayments, if_neg (Nat.ne_of_gt hpos), if_pos hrouted, paid_routePayments]
  rw [stakeShares, if_pos hrouted, routeShares_length]

/-- The floor of an earlier route, at its place among the shares. -/
theorem routed_share {i : Nat} (hrouted : Routed c) (hinit : c.stakeRoutes = init ++ [last]) (hi : init[i]? = some r)
    (amount : Nat) : (stakeShares c amount)[i]? = some (floorShare amount c.totalStakeWeight r) := by
  have hlt : i < init.length := (List.getElem?_eq_some_iff.mp hi).1
  rw [routed_shares hrouted hinit, List.getElem?_append_left (by rw [List.length_map]; exact hlt),
    List.getElem?_map, hi]
  rfl

end Routed

/-- Settled routes get the whole of what is staked, in proportion. -/
theorem routes_conserved {c : Settings} (hc : c.Valid) (hpos : 0 < amount) (hsettled : RoutesSettled c amount) :
    RoutesConserved c amount := by
  rcases hsettled with ⟨hzero, hidle⟩ | ⟨htotal, last, hget, hlast⟩
  · have hnone : ¬ Routed c := fun hrouted => Nat.ne_of_gt hrouted.2 hzero
    have hno : ∀ r ∈ c.stakeRoutes, ¬ r.active = true := by
      intro r hr hactive
      rw [hidle r hr] at hactive
      exact Bool.false_ne_true hactive
    refine ⟨?_, ?_, ?_⟩
    · rw [stakePayments, if_neg hnone, if_neg (Nat.ne_of_gt hpos)]
      split <;> rfl
    · rintro ⟨r, hr, hactive⟩
      exact absurd hactive (hno r hr)
    · intro i r share hr hactive
      exact absurd hactive (hno r (List.mem_of_getElem? hr))
  obtain ⟨init, hinit⟩ := List.getLast?_eq_some_iff.mp hget
  have hrouted : Routed c := by
    refine ⟨?_, htotal⟩
    rw [hinit, List.length_append, List.length_singleton]
    omega
  have hparts := totalWeight_parts c.stakeRoutes
  rw [← hc.weights] at hparts
  have hshares := routed_shares hrouted hinit amount
  have hpaid := routed_paid hrouted hpos
  rcases hlast with ⟨hactive, hnear⟩ | ⟨hpassed, hidle, hdvd⟩
  · have hlast' : ¬ Idle last := not_idle hc (by rw [hinit]; exact List.mem_concat_self) hactive
    have hsum : (stakeShares c amount).sum = amount := by
      rw [stakeShares, if_pos hrouted, hinit]
      rw [hinit, activeWeight_concat] at hparts
      exact sum_routeShares htotal hlast' (by omega)
    have hnear' : ∀ r ∈ init, ¬ Idle r → amount * r.weightBps
        ≤ activeWeight c.stakeRoutes * (amount * r.weightBps / c.totalStakeWeight + 1) := by
      intro r hr hidle
      rw [hinit, List.dropLast_concat] at hnear
      rw [hinit]
      exact hnear r hr (Bool.eq_true_of_not_eq_false fun h => hidle (.inl h))
    refine ⟨hpaid.trans hsum, fun _ => hsum, fun i r share hr hactive hshare => ?_⟩
    have hidle := not_idle hc (List.mem_of_getElem? hr) hactive
    rw [hinit, List.getElem?_append] at hr
    split at hr
    · rw [routed_share hrouted hinit hr] at hshare
      cases hshare
      exact earlier_proportional hidle (by omega) (hnear' r (List.mem_of_getElem? hr) hidle)
    · rename_i hi
      obtain ⟨hi', rfl⟩ := at_last hr
      rw [hshares, List.getElem?_append_right (by rw [List.length_map]; omega), List.length_map, hi',
        List.getElem?_singleton, if_pos rfl, if_neg hlast'] at hshare
      cases hshare
      rw [hinit] at hnear' hparts ⊢
      exact last_proportional hlast' htotal (by omega) hnear'
  · have hlast' : Idle last := .inl hpassed
    have hweight : c.totalStakeWeight = activeWeight init + 0 := by
      rw [hparts, hidle, hinit, activeWeight_concat, if_pos hlast']
    have hwhole := (earlierShares_whole hpos htotal hweight).mpr ⟨rfl, fun r hr hactive =>
      hdvd r (by rw [hinit]; exact List.mem_append_left _ hr) (Bool.eq_true_of_not_eq_false fun h => hactive (.inl h))⟩
    have hsum : (stakeShares c amount).sum = amount := by
      rw [stakeShares, if_pos hrouted, hinit, sum_routeShares_idle hlast']
      exact hwhole
    refine ⟨hpaid.trans hsum, fun _ => hsum, fun i r share hr hactive hshare => ?_⟩
    have hidle' := not_idle hc (List.mem_of_getElem? hr) hactive
    rw [hinit, List.getElem?_append] at hr
    split at hr
    · rw [routed_share hrouted hinit hr] at hshare
      cases hshare
      refine earlier_proportional hidle' (by omega) ?_
      rw [show activeWeight c.stakeRoutes = c.totalStakeWeight by omega]
      exact Nat.le_of_lt (Nat.lt_mul_div_succ _ htotal)
    · obtain ⟨-, rfl⟩ := at_last hr
      exact absurd hlast' hidle'

/-- Routes that get the whole of it, in proportion, are settled. -/
theorem routes_settled {c : Settings} (hc : c.Valid) (hpos : 0 < amount) (h : RoutesConserved c amount) :
    RoutesSettled c amount := by
  have hparts := totalWeight_parts c.stakeRoutes
  rw [← hc.weights] at hparts
  by_cases hrouted : Routed c
  · obtain ⟨last, hget⟩ := List.getLast?_isSome.mpr (List.ne_nil_of_length_pos hrouted.1) |> Option.isSome_iff_exists.mp
    obtain ⟨init, hinit⟩ := List.getLast?_eq_some_iff.mp hget
    refine .inr ⟨hrouted.2, last, hget, ?_⟩
    by_cases hlast : last.active = true
    · refine .inl ⟨hlast, fun r hr hactive => ?_⟩
      rw [hinit, List.dropLast_concat] at hr
      obtain ⟨i, hi⟩ := List.getElem?_of_mem hr
      have hlt : i < init.length := (List.getElem?_eq_some_iff.mp hi).1
      have hat : c.stakeRoutes[i]? = some r := by
        rw [hinit, List.getElem?_append_left hlt, hi]
      have hfraction := (h.fraction i r _ hat hactive (routed_share hrouted hinit hi amount)).2
      rw [floorShare, if_neg (not_idle hc (List.mem_of_getElem? hat) hactive)] at hfraction
      exact hfraction
    · have hidle : Idle last := .inl (Bool.eq_false_of_not_eq_true hlast)
      have hsum : (stakeShares c amount).sum = amount := (routed_paid hrouted hpos).symm.trans h.paidOut
      rw [stakeShares, if_pos hrouted, hinit, sum_routeShares_idle hidle] at hsum
      have hweight : c.totalStakeWeight = activeWeight init + idleWeight c.stakeRoutes := by
        rw [hparts, hinit, activeWeight_concat, if_pos hidle, Nat.add_zero]
      obtain ⟨hzero, hdvd⟩ := (earlierShares_whole hpos hrouted.2 hweight).mp hsum
      refine .inr ⟨Bool.eq_false_of_not_eq_true hlast, hzero, fun r hr hactive => ?_⟩
      have hnot := not_idle hc hr hactive
      rw [hinit] at hr
      rcases List.mem_append.mp hr with hearlier | hend
      · exact hdvd r hearlier hnot
      · obtain rfl := List.mem_singleton.mp hend
        exact absurd hactive hlast
  · have hzero : c.totalStakeWeight = 0 := by
      by_cases hlength : 0 < c.stakeRoutes.length
      · exact Nat.eq_zero_of_not_pos fun htotal => hrouted ⟨hlength, htotal⟩
      · rw [hparts, List.length_eq_zero_iff.mp (Nat.eq_zero_of_not_pos hlength)]
        rfl
    refine .inl ⟨hzero, fun r hr => Bool.eq_false_of_not_eq_true fun hactive => ?_⟩
    have hsum := h.stake ⟨r, hr, hactive⟩
    rw [stakeShares, if_neg hrouted] at hsum
    have hnone : (c.stakeRoutes.map fun _ => 0).sum = 0 := List.sum_eq_zero fun x hx => by
      obtain ⟨r', -, rfl⟩ := List.mem_map.mp hx
      rfl
    omega

theorem nothing_conserved (c : Settings) : paid (stakePayments c 0) = 0 ∧ (stakeShares c 0).sum = 0
    ∧ ∀ (i : Nat) (r : StakeRoute) (share : Nat), (stakeShares c 0)[i]? = some share →
        Proportional c.stakeRoutes 0 r share := by
  have hall : ∀ share ∈ stakeShares c 0, share = 0 := by
    rw [stakeShares]
    split
    · exact routeShares_zero c.stakeRoutes 0
    · intro share hshare
      obtain ⟨r, -, rfl⟩ := List.mem_map.mp hshare
      rfl
  refine ⟨?_, List.sum_eq_zero hall, fun i r share hshare => ?_⟩
  · rw [stakePayments, if_pos rfl]
    rfl
  · rw [hall share (List.mem_of_getElem? hshare), Proportional, Nat.mul_zero, Nat.zero_mul]
    exact ⟨Nat.zero_le _, Nat.zero_le _⟩

/-- The boost is settled exactly when at most one unit more than the incentives is recorded. -/
theorem incentives_iff {c : Settings} {balance : Nat} (hsplit : Split c balance boost parts) (hmin : minBoost ≤ boost) :
    BoostSettled c balance boost ↔ ∃ rounding ≤ 1,
      parts.incentivesAmount + parts.lpBoostAmount + parts.grantsAmount = parts.getAmount + rounding := by
  have hgrants := hsplit.grants
  have hbase : parts.getAmount * c.incentivesBps / totalBps
      ≤ parts.getAmount * c.incentivesBps * boost / (totalBps * totalBps) := by
    rw [← Nat.mul_div_mul_right _ totalBps (show 0 < totalBps by decide)]
    exact Nat.div_le_div_right (Nat.mul_le_mul_left _ hmin)
  rw [BoostSettled, hsplit.incentives, ← hsplit.get]
  generalize parts.getAmount * c.incentivesBps / totalBps = base at hgrants hbase ⊢
  generalize parts.getAmount * c.incentivesBps * boost / (totalBps * totalBps) = boosted at hbase ⊢
  constructor
  · intro hsettled
    exact ⟨min parts.getAmount boosted - base, by omega, by omega⟩
  · rintro ⟨rounding, hle, hrecorded⟩
    omega

variable {admin : Address} {wallets : Wallets} {now balance : Nat} {c : Splitter}

/-- **CONSERVATION**: from every reachable state, a distribution underflows nowhere, and one that succeeds makes
    the payments of its parts; it conserves the balance exactly where the state is settled. -/
theorem distribute_conserves (h : construct admin wallets now balance = .ok c) (ops : List Op) (m : Msg)
    (replies : Replies) : distribute m replies (runOps c ops).world ≠ .error .underflow
    ∧ ∀ w', distribute m replies (runOps c ops).world = .ok w' →
      ∃ boost parts, Distributed replies (runOps c ops).world w' boost parts
        ∧ (Settled (runOps c ops).world.state ((runOps c ops).world.holdings .native)
          ↔ Conserved (runOps c ops).world.state w'.state ((runOps c ops).world.holdings .native) parts) := by
  have hc := run_configured h ops
  generalize (runOps c ops).world = w at hc ⊢
  have hyields := @distribute_pays replies m w hc
  refine ⟨fun hunderflow => hyields.raises _ hunderflow, fun w' hw' => ?_⟩
  obtain ⟨boost, parts, hdone⟩ := hyields.ok hw'
  refine ⟨boost, parts, hdone, ?_⟩
  have hsplit := hdone.split
  have hall := hsplit.all
  have hstaked := hsplit.staked
  have hpays : paid (payments (settings w.state) parts) + parts.grantsAmount = w.holdings .native
      ↔ paid (stakePayments (settings w.state) parts.feeToStakeAmount) = parts.feeToStakeAmount := by
    have hforwarded := hsplit.forwarded
    show parts.bbbAmount + (parts.getForwarded + (parts.stakerAmount + (parts.treasuryAmount
      + paid (stakePayments (settings w.state) parts.feeToStakeAmount)))) + parts.grantsAmount = _ ↔ _
    omega
  have hrecorded := incentives_iff hsplit (computeBoost_range hc hdone.computed).1
  have htotals : ∀ rounding,
      w'.state.totalIncentivesDistributed + w'.state.totalLPBoostDistributed + w'.state.totalGrantsDistributed
        = w.state.totalIncentivesDistributed + w.state.totalLPBoostDistributed + w.state.totalGrantsDistributed
          + parts.getAmount + rounding
      ↔ parts.incentivesAmount + parts.lpBoostAmount + parts.grantsAmount = parts.getAmount + rounding := by
    intro rounding
    rw [hdone.totalIncentives, hdone.totalLPBoost, hdone.totalGrants]
    omega
  constructor
  · intro hsettled
    have hroutes : RoutesConserved (settings w.state) parts.feeToStakeAmount := by
      rcases Nat.eq_zero_or_pos parts.feeToStakeAmount with hzero | hpos
      · rw [hzero]
        obtain ⟨hpaid, hsum, hfraction⟩ := nothing_conserved (settings w.state)
        exact ⟨hpaid, fun _ => hsum, fun i r share _ _ hshare => hfraction i r share hshare⟩
      · refine routes_conserved hc.valid hpos ?_
        rw [hstaked] at hpos ⊢
        exact hsettled.stake.resolve_left fun hless => Nat.ne_of_gt hpos (Nat.div_eq_of_lt hless)
    obtain ⟨rounding, hle, hmore⟩ := hrecorded.mp (hsettled.boost boost hdone.computed)
    exact ⟨hall, hpays.mpr hroutes.paidOut, hdone.grantPoolBalance, hroutes.stake, hroutes.fraction,
      rounding, hle, (htotals rounding).mpr hmore⟩
  · intro hconserved
    obtain ⟨rounding, hle, hmore⟩ := hconserved.recorded
    constructor
    · rw [← hstaked]
      rcases Nat.lt_or_ge (stakedBps (settings w.state) (w.holdings .native)) totalBps with hless | hmuch
      · exact .inl hless
      · refine .inr (routes_settled hc.valid ?_ ⟨hpays.mp hconserved.paidOut, hconserved.stake, hconserved.fraction⟩)
        rw [hstaked]
        exact Nat.div_pos hmuch (by decide)
    · intro boost' hboost'
      cases hdone.computed.symm.trans hboost'
      exact hrecorded.mpr ⟨rounding, hle, (htotals rounding).mp hmore⟩

/-! ## Sample -/

def sampleWallets : Wallets where
  bbbWallet := 0xB1
  getWallet := 0xB2
  stakerVault := 0xB3
  treasuryWallet := 0xB4
  stakePool := 0xB5

/-- The contract at its deployment. -/
def sampleSplitter : Splitter where
  world := start sampleWallets 1700000000 0
  treasuryBps := 1500
  grantsBps := 2000
  lastVolumeReset := 1700000000
  erc20Balances := fun _ => 0
  circuitErc20Fees := fun _ _ => 0
  totalErc20Collected := fun _ => 0

theorem sampleTime_positive : 0 < 1700000000 := by decide

theorem sampleTime_inRange : 1700000000 < 2 ^ 64 := by decide

/-- The admin holds every role. -/
def sampleMsg : Msg where
  sender := 0xAD
  timestamp := 1700000000
  chainid := 361
  holds := fun _ => true
  positive := sampleTime_positive
  inRange := sampleTime_inRange

/-- Every account accepts. -/
def sampleReplies : Replies := fun _ => { ok := true, calls := [] }

/-- Two routes of equal weight. -/
def sampleRoutes : List Op := [
  .config sampleMsg (.addStakeRoute 0xC1 361 "wTHETA/TFUEL" 5000),
  .config sampleMsg (.addStakeRoute 0xC2 964 "dTAO Subnet 1" 5000)]

def sampleCall (call : OpenCall) : Op := .call { msg := sampleMsg, call := .openCall call, replies := sampleReplies }

/-- Two routes to be paid, one of half the other's weight, and a last one without weight that is not. -/
def sampleWeighted : List Op := sampleRoutes ++ [
  .config sampleMsg (.addStakeRoute 0xC3 1 "stETH" 5000),
  .config sampleMsg (.updateStakeRoute 1 true 2500),
  .config sampleMsg (.updateStakeRoute 2 false 0),
  sampleCall (.depositFee 10000 7)]

theorem distribute_conserves_sample :
    let w := (runOps sampleSplitter sampleWeighted).world
    ∃ w' parts, distribute sampleMsg sampleReplies w = .ok w' ∧ Conserved w.state w'.state 10000 parts
      ∧ stakeShares (settings w.state) parts.feeToStakeAmount = [200, 100, 0] := by
  intro w
  obtain ⟨-, hdone⟩ := @distribute_conserves 0xAD sampleWallets 1700000000 0 sampleSplitter rfl sampleWeighted
    sampleMsg sampleReplies
  have hok : (distribute sampleMsg sampleReplies w).isOk = true := by
    decide +kernel
  cases hw' : distribute sampleMsg sampleReplies w with
  | error e =>
    rw [hw'] at hok
    exact nomatch hok
  | ok w' =>
    obtain ⟨boost, parts, hparts, hconserved⟩ := hdone w' hw'
    refine ⟨w', parts, rfl, hconserved.mp ⟨.inr (.inr ⟨?_, ?_⟩), fun b hb => ?_⟩, ?_⟩
    · decide +kernel
    · refine ⟨⟨0xC3, 1, "stETH", 0, false⟩, rfl, .inr ⟨rfl, ?_, ?_⟩⟩
      · decide +kernel
      · decide +kernel
    · have hboost : (computeBoost w.state).toOption = some 10000 := by
        decide +kernel
      rw [hb] at hboost
      obtain rfl := Option.some.inj hboost
      rw [BoostSettled]
      decide +kernel
    · rw [hparts.split.staked]
      decide +kernel

/-- The last of the two routes is passed over, and the fee is a native one. -/
def sampleIdle : List Op := sampleRoutes ++ [
  .config sampleMsg (.updateStakeRoute 1 false 5000),
  sampleCall (.depositFeeWithTag 10000 7 providerTagThetaNative)]

/-- Half of the stake of 10000 stays in the contract, where nothing accounts for it; and for a GET part of 3000 the
    totals grow by 4500. -/
theorem last_route_idle :
    let w := (runOps sampleSplitter sampleIdle).world
    (∃ r ∈ w.state.stakeRoutes, r.active = true) ∧ w.holdings .native = 10000
    ∧ ∃ w', distribute sampleMsg sampleReplies w = .ok w'
      ∧ w'.holdings .native = 750 ∧ w'.state.grantPoolBalance = 600
      ∧ w'.state.totalGET = 3000 ∧ w'.state.totalIncentivesDistributed + w'.state.totalLPBoostDistributed
          + w'.state.totalGrantsDistributed = 4500
      ∧ ∀ boost parts, Distributed sampleReplies w w' boost parts → ¬ Conserved w.state w'.state 10000 parts := by
  intro w
  have hactive : ∃ r ∈ w.state.stakeRoutes, r.active = true :=
    ⟨⟨0xC1, 361, "wTHETA/TFUEL", 5000, true⟩, List.mem_cons_self, rfl⟩
  have hheld : w.holdings .native = 10000 := by
    decide +kernel
  have hresult : (distribute sampleMsg sampleReplies w).toOption.map (fun w' => (w'.holdings .native,
      w'.state.grantPoolBalance, w'.state.totalGET, w'.state.totalIncentivesDistributed
        + w'.state.totalLPBoostDistributed + w'.state.totalGrantsDistributed)) = some (750, 600, 3000, 4500) := by
    decide +kernel
  refine ⟨hactive, hheld, ?_⟩
  cases hw' : distribute sampleMsg sampleReplies w with
  | error e =>
    rw [hw'] at hresult
    exact nomatch hresult
  | ok w' =>
    rw [hw'] at hresult
    obtain ⟨hleft, hpool, hget, hrecorded⟩ : w'.holdings .native = 750 ∧ w'.state.grantPoolBalance = 600
        ∧ w'.state.totalGET = 3000 ∧ w'.state.totalIncentivesDistributed + w'.state.totalLPBoostDistributed
          + w'.state.totalGrantsDistributed = 4500 := by
      have := Option.some.inj hresult
      simpa only [Prod.mk.injEq] using this
    refine ⟨w', rfl, hleft, hpool, hget, hrecorded, fun boost parts hdone hconserved => ?_⟩
    have hfee : parts.feeToStakeAmount = 300 := by
      rw [hdone.split.staked]
      decide +kernel
    have hsum := hconserved.stake hactive
    rw [hfee] at hsum
    have hhalf : (stakeShares (settings w.state) 300).sum = 150 := by
      decide +kernel
    exact absurd (hhalf.symm.trans hsum) (by decide)

end StakeRouting
