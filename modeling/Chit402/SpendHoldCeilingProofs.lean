import Chit402.SpendHoldProofs

/-! # The ceiling over every run of the spend-hold store

    What one operation can do to the store is said once (`exec_change _`): a
    sweep, and then at most one write.  A hold loads a ceiling with its
    reservation while it is open and with its consumed amount once it is
    settled; no operation raises a ceiling's load past its cap. -/

namespace SpendHold

open OrderedMap

variable {τ : Type} {host : Host τ}

/-! ## Load -/

/-- What an open hold keeps from a ceiling, due or not. -/
def Hold.reservedUnder (scope key : String) (hold : Hold τ) : ℕ :=
  if hold.state = .OPEN ∧ hold.hasLeg scope key then hold.reserved else 0

def Hold.load (scope key : String) (hold : Hold τ) : ℕ := hold.spent scope key + hold.reservedUnder scope key

def load (s : Store τ) (scope key : String) : ℕ := s.byRequest.sum (Hold.load scope key)

theorem load_eq (s : Store τ) (scope key : String) : load s scope key
      = s.byRequest.sum (Hold.spent scope key) + s.byRequest.sum (Hold.reservedUnder scope key) := by
  unfold load OrderedMap.sum
  rw [← List.sum_map_add]
  rfl

variable {call : Call} {hold hold' : Hold τ} {o : Outside τ} {m s : Store τ} {requestId : String}
  {cap : String → String → ℕ} {now : τ}

theorem Hold.load_eq_zero (hopen : hold.state ≠ .OPEN) (hused : hold.state ≠ .CONSUMED) (scope key : String) :
    hold.load scope key = 0 := by
  simp [Hold.load, Hold.spent, Hold.reservedUnder, hopen, hused]

/-! ## What an operation does -/

/-- A hold before and after a sweep or a release: untouched, or no longer open. -/
def Lapse (hold hold' : Hold τ) : Prop :=
  hold' = hold ∨ (hold.state = .OPEN ∧ hold'.request_id = hold.request_id
    ∧ (hold'.state = .EXPIRED ∨ hold'.state = .RELEASED))

theorem Lapse.load_le (h : Lapse hold hold') (scope key : String) : hold'.load scope key ≤ hold.load scope key := by
  rcases h with rfl | ⟨-, -, hstate⟩
  · exact Nat.le_refl _
  · rw [Hold.load_eq_zero (by rcases hstate with h | h <;> simp [h]) (by rcases hstate with h | h <;> simp [h])]
    exact Nat.zero_le _

theorem lapse_expire (now : τ) (hold : Hold τ) : Lapse hold (hold.expire host now) := by
  unfold Hold.expire
  split_ifs with hdue
  · have hopen : hold.state = .OPEN := by
      simp only [Hold.isDue, Bool.and_eq_true, decide_eq_true_eq] at hdue
      exact hdue.1
    exact Or.inr ⟨hopen, rfl, Or.inl rfl⟩
  · exact Or.inl rfl

/-- One store before and after a sweep. -/
structure Swept (s s' : Store τ) : Prop where
  lookup : ∀ id, Option.Rel Lapse (s.byRequest.lookup id) (s'.byRequest.lookup id)
  load : ∀ scope key, load s' scope key ≤ load s scope key

theorem Swept.refl (s : Store τ) : Swept s s where
  lookup := by
    intro id
    cases s.byRequest.lookup id with
    | none => exact .none
    | some hold => exact .some (Or.inl rfl)
  load := fun _ _ => Nat.le_refl _

/-- Writing a lapsed hold in its own place is a sweep of one key. -/
theorem Swept.set {id : String} (hlook : s.byRequest.lookup id = some hold) (hlapse : Lapse hold hold') :
    Swept s ⟨OrderedMap.set s.byRequest id hold'⟩ where
  lookup := by
    intro id'
    rw [lookup_set]
    by_cases hid : id' = id
    · subst hid
      rw [if_pos rfl, hlook]
      exact .some hlapse
    · rw [if_neg hid]
      exact (Swept.refl s).lookup id'
  load := by
    intro scope key
    have hsum := sum_set s.byRequest id hold' (Hold.load scope key)
    have hle := hlapse.load_le scope key
    rw [hlook] at hsum
    simp only [Option.elim_some] at hsum
    unfold SpendHold.load
    dsimp only
    omega

variable (host) in
theorem swept_expire (s : Store τ) (now : τ) (saved : Bool) : Swept s (expire host s now saved).1 := by
  unfold expire
  cases hfind : s.byRequest.entries.find? fun e => e.2.isDue host now with
  | none =>
    exact Swept.refl s
  | some first =>
    have hmem : s.byRequest.lookup first.1 = some first.2 :=
      AList.mem_lookup_iff.2 (List.mem_of_find?_eq_some hfind)
    have hdue := List.find?_some hfind
    have hopen : first.2.state = .OPEN := by
      simp only [Hold.isDue, Bool.and_eq_true, decide_eq_true_eq] at hdue
      exact hdue.1
    by_cases hdated : host.dated now
    · cases saved with
      | false =>
        simpa [hdated] using Swept.refl s
      | true =>
        simp only [hdated, if_true]
        exact {
          lookup := by
            intro id
            rw [lookup_mapValues]
            cases s.byRequest.lookup id with
            | none => exact .none
            | some hold => exact .some (lapse_expire now hold)
          load := by
            intro scope key
            unfold load
            rw [sum_mapValues]
            exact sum_le_sum _ fun hold => (lapse_expire now hold).load_le scope key }
    · simp only [hdated]
      exact Swept.set hmem (Or.inr ⟨hopen, rfl, Or.inl rfl⟩)

/-- After a sweep that returned, no open hold is due. -/
theorem not_due_of_expire {saved b : Bool} (h : expire host s now saved = (m, .ok b))
    (hmem : hold ∈ m.byRequest.values) : hold.isDue host now = false := by
  unfold expire at h
  cases hfind : s.byRequest.entries.find? fun e => e.2.isDue host now with
  | none =>
    rw [hfind] at h
    simp only [Prod.mk.injEq] at h
    rw [← h.1, values, List.mem_map] at hmem
    obtain ⟨e, he, rfl⟩ := hmem
    simpa using List.find?_eq_none.1 hfind e he
  | some first =>
    rw [hfind] at h
    by_cases hdated : host.dated now
    · cases saved with
      | false =>
        simp [hdated] at h
      | true =>
        simp only [hdated, if_true, Prod.mk.injEq] at h
        rw [← h.1, mem_values_iff] at hmem
        obtain ⟨id, hid⟩ := hmem
        rw [lookup_mapValues, Option.map_eq_some_iff] at hid
        obtain ⟨old, -, rfl⟩ := hid
        unfold Hold.expire
        split_ifs with hdue
        · simp [Hold.isDue]
        · simpa using hdue
    · simp [hdated] at h

/-- A hold with its settlement date. -/
def Hold.stamp (consumed_at : Option τ) (hold : Hold τ) : Hold τ := { hold with consumed_at := consumed_at }

/-- **What one call writes after its sweep.** -/
inductive Change (host : Host τ) (m : Store τ) (o : Outside τ) : Call → Store τ → Prop
  | nothing (call : Call) : Change host m o call m
  | reserved {requestId : String} {amount : Amount} {ceilings : List Ceiling} {requested : ℕ}
      (fresh : existingLive m requestId = none)
      (noneDue : ∀ hold ∈ m.byRequest.values, hold.isDue host o.now = false)
      (fits : verdict host m requested o.now (normalizeCeilings host ceilings) = none) :
      Change host m o (.reserve requestId amount ceilings)
        ⟨m.byRequest.set requestId
          (newHold host requestId requested (normalizeCeilings host ceilings) o.now o.uuid)⟩
  | undone {requestId : String} {amount : Amount} {ceilings : List Ceiling} (hold : Hold τ)
      (fresh : existingLive m requestId = none) :
      Change host m o (.reserve requestId amount ceilings)
        ⟨AList.erase requestId (m.byRequest.set requestId hold)⟩
  | consumed {requestId : String} {actual : Amount} {hold : Hold τ} (consumed_at : Option τ)
      (found : m.byRequest.lookup requestId = some hold) (opened : hold.state = .OPEN) :
      Change host m o (.consume requestId actual)
        ⟨m.byRequest.set requestId ((hold.consume actual).stamp consumed_at)⟩
  | released {requestId : String} {hold : Hold τ} (released_at : Option τ)
      (found : m.byRequest.lookup requestId = some hold) (opened : hold.state = .OPEN) :
      Change host m o (.release requestId)
        ⟨m.byRequest.set requestId { hold with state := .RELEASED, released_at := released_at }⟩

variable (host) in
theorem afterSweep_cases {ρ : Type} (s : Store τ) (o : Outside τ) (body : Store τ → Outcome τ ρ) :
    (∃ fault, afterSweep host s o body = ((expire host s o.now o.sweepSaved).1, .error fault))
      ∨ ((∀ hold ∈ (expire host s o.now o.sweepSaved).1.byRequest.values, hold.isDue host o.now = false)
        ∧ afterSweep host s o body = body (expire host s o.now o.sweepSaved).1) := by
  unfold afterSweep
  rcases hexp : expire host s o.now o.sweepSaved with ⟨m, r⟩
  cases r with
  | error fault => exact Or.inl ⟨fault, rfl⟩
  | ok b => exact Or.inr ⟨fun hold hmem => not_due_of_expire hexp hmem, rfl⟩

variable (host) in
theorem change_reserve (s : Store τ) (requestId : String) (amount : Amount) (ceilings : List Ceiling) (o : Outside τ) :
    Change host (expire host s o.now o.sweepSaved).1 o (.reserve requestId amount ceilings)
      (reserve host s requestId amount ceilings o).1 := by
  rcases afterSweep_cases _ s o _ with ⟨fault, heq⟩ | ⟨hdue, heq⟩
  · rw [reserve, heq]
    exact .nothing _
  · rw [reserve, heq]
    by_cases hid : requestId = ""
    · rw [if_pos hid]
      exact .nothing _
    rw [if_neg hid]
    cases hlive : existingLive (expire host s o.now o.sweepSaved).1 requestId with
    | some live => exact .nothing _
    | none =>
      dsimp only
      cases parseAtomic amount with
      | none => exact .nothing _
      | some requested =>
        dsimp only
        split_ifs
        · exact .nothing _
        · exact .nothing _
        · cases hfits : verdict host (expire host s o.now o.sweepSaved).1 requested o.now
            (normalizeCeilings host ceilings) with
          | some refusal => exact .nothing _
          | none =>
            unfold commit
            cases o.saved with
            | true => exact .reserved hlive hdue hfits
            | false => exact .undone _ hlive

variable (host) in
/-- The two calls that close an open hold. -/
theorem change_close (s : Store τ) (requestId : String) (o : Outside τ) {call : Call}
    (hcall : call = .release requestId ∨ ∃ actual, call = .consume requestId actual) :
    Change host (expire host s o.now o.sweepSaved).1 o call (exec host s o call).1 := by
  obtain rfl | ⟨actual, rfl⟩ := hcall
  all_goals
    first | rw [exec, consume] | rw [exec, release]
    rcases afterSweep_cases _ s o _ with ⟨fault, heq⟩ | ⟨-, heq⟩
    · rw [heq]
      exact .nothing _
    rw [heq]
    cases hfound : (expire host s o.now o.sweepSaved).1.byRequest.lookup requestId with
    | none => exact .nothing _
    | some hold =>
      dsimp only
      cases hstate : hold.state with
      | CONSUMED | RELEASED | EXPIRED => exact .nothing _
      | OPEN =>
        dsimp only
        split_ifs
        · first | exact .released (some o.now) hfound hstate | exact .consumed (some o.now) hfound hstate
        · exact .nothing _
        · first | exact .released hold.released_at hfound hstate | exact .consumed hold.consumed_at hfound hstate

theorem change_read {ρ : Type} (s : Store τ) (o : Outside τ) (call : Call) (body : Store τ → Outcome τ ρ)
    (hbody : ∀ m, (body m).1 = m) :
    Change host (expire host s o.now o.sweepSaved).1 o call (afterSweep host s o body).1 := by
  rcases afterSweep_cases _ s o body with ⟨fault, heq⟩ | ⟨-, heq⟩
  · rw [heq]
    exact .nothing _
  · rw [heq, hbody]
    exact .nothing _

theorem change_preview (s : Store τ) (ceilings : List Ceiling) (amount : Amount) (o : Outside τ) :
    Change host (expire host s o.now o.sweepSaved).1 o (.preview ceilings amount)
      (preview host s ceilings amount o).1 := by
  refine change_read s o _ _ fun m => ?_
  cases parseAtomic amount with
  | none => rfl
  | some requested =>
    dsimp only
    split_ifs
    · rfl
    · rfl
    · cases verdict host m requested o.now (normalizeCeilings host ceilings) with
      | none => rfl
      | some refusal => rfl

variable (host) in
/-- **One call: a sweep, then at most one write.** -/
theorem exec_change (s : Store τ) (o : Outside τ) (call : Call) :
    Change host (expire host s o.now o.sweepSaved).1 o call (exec host s o call).1 := by
  cases call with
  | reserve requestId amount ceilings => exact change_reserve _ s requestId amount ceilings o
  | consume requestId actual => exact change_close _ s requestId o (.inr ⟨actual, rfl⟩)
  | release requestId => exact change_close _ s requestId o (.inl rfl)
  | expireDue =>
    show Change host _ o _ (expireDue host s o).1
    exact change_read s o _ _ fun _ => rfl
  | preview ceilings amount => exact change_preview s ceilings amount o
  | snapshot =>
    show Change host _ o _ (snapshot host s o).1
    exact change_read s o _ _ fun _ => rfl
  | openReserved scope key =>
    show Change host _ o _ (openReserved host s scope key o).1
    exact change_read s o _ _ fun _ => rfl

/-! ## The invariant -/

/-- Every leg of the ceilings, as the store reads them, has its pair's cap and no settled callback. -/
def Capped (host : Host τ) (cap : String → String → ℕ) : Call → Prop
  | .reserve _ _ ceilings =>
    ∀ leg ∈ normalizeCeilings host ceilings, leg.cap = cap leg.scope leg.key ∧ leg.settled = none
  | _ => True

/-- What every reachable store keeps. -/
structure Inv (cap : String → String → ℕ) (s : Store τ) : Prop where
  keyed : ∀ id hold, s.byRequest.lookup id = some hold → hold.request_id = id
  used : ∀ id hold, s.byRequest.lookup id = some hold → hold.state = .CONSUMED →
    hold.consumed_amount ≤ hold.reserved
  capped : ∀ scope key, load s scope key ≤ cap scope key

theorem inv_empty (cap : String → String → ℕ) : Inv cap (emptyStore : Store τ) where
  keyed := by
    intro id hold h
    simp [emptyStore] at h
  used := by
    intro id hold h
    simp [emptyStore] at h
  capped := by
    intro scope key
    exact Nat.zero_le _

theorem Swept.inv (h : Swept s m) (hi : Inv cap s) : Inv cap m where
  keyed := by
    intro id hold hlook
    have hrel := h.lookup id
    rw [hlook] at hrel
    cases hold0 : s.byRequest.lookup id with
    | none =>
      rw [hold0] at hrel
      cases hrel
    | some old =>
      rw [hold0] at hrel
      cases hrel with
      | some hlapse =>
        rcases hlapse with rfl | ⟨-, hreq, -⟩
        · exact hi.keyed id _ hold0
        · rw [hreq]
          exact hi.keyed id old hold0
  used := by
    intro id hold hlook hstate
    have hrel := h.lookup id
    rw [hlook] at hrel
    cases hold0 : s.byRequest.lookup id with
    | none =>
      rw [hold0] at hrel
      cases hrel
    | some old =>
      rw [hold0] at hrel
      cases hrel with
      | some hlapse =>
        rcases hlapse with rfl | ⟨-, -, hlost⟩
        · exact hi.used id _ hold0 hstate
        · rw [hstate] at hlost
          simp at hlost
  capped := fun scope key => (h.load scope key).trans (hi.capped scope key)

/-- With no hold due, the verdict's two sums are the load. -/
theorem spent_add_held (hdue : ∀ hold ∈ m.byRequest.values, hold.isDue host now = false) {leg : CheckedLeg}
    (hleg : leg.settled = none) : settled m leg + openSum host m leg.scope leg.key now = load m leg.scope leg.key := by
  have hheld : openSum host m leg.scope leg.key now = m.byRequest.sum (Hold.reservedUnder leg.scope leg.key) := by
    unfold openSum OrderedMap.sum
    congr 1
    refine List.map_congr_left fun e he => ?_
    have hnot := hdue e.2 (List.mem_map.2 ⟨e, he, rfl⟩)
    unfold Hold.held Hold.reservedUnder
    simp only [Hold.isDue, Bool.and_eq_false_imp, decide_eq_true_eq] at hnot
    by_cases hopen : e.2.state = .OPEN
    · simp [hopen, hnot hopen]
    · simp [hopen]
  rw [settled, hleg, hheld, load_eq]

/-- A verdict that passes leaves room under every leg. -/
theorem room_of_verdict {amount : ℕ} : ∀ {legs : List CheckedLeg}, verdict host m amount now legs = none → ∀ leg ∈ legs,
      settled m leg + openSum host m leg.scope leg.key now + amount ≤ leg.cap := by
  intro legs
  induction legs with
  | nil =>
    intro _ leg hleg
    simp at hleg
  | cons first rest ih =>
    intro h leg hleg
    unfold verdict at h
    dsimp only at h
    split_ifs at h with hlt
    rcases List.mem_cons.1 hleg with rfl | hrest
    · omega
    · exact ih h leg hrest

theorem load_of_not_live (h : existingLive m requestId = none) (scope key : String) :
    (m.byRequest.lookup requestId).elim 0 (Hold.load scope key) = 0 := by
  unfold existingLive at h
  cases hlook : m.byRequest.lookup requestId with
  | none => rfl
  | some hold =>
    rw [hlook] at h
    simp only [Option.filter_eq_none_iff, Option.some.injEq, forall_eq', decide_eq_true_eq, not_or] at h
    exact Hold.load_eq_zero h.1 h.2 scope key

theorem newHold_load (requestId : String) (amount : ℕ) (legs : List CheckedLeg) (now : τ) (uuid : String)
    (scope key : String) : (newHold host requestId amount legs now uuid).load scope key
      = if ∃ leg ∈ legs, leg.scope = scope ∧ leg.key = key then amount else 0 := by
  simp [Hold.load, Hold.spent, Hold.reservedUnder, Hold.hasLeg, newHold]

theorem load_set_fresh (h : existingLive m requestId = none) (hold : Hold τ) (scope key : String) :
    load ⟨m.byRequest.set requestId hold⟩ scope key = load m scope key + hold.load scope key := by
  have hsum := sum_set m.byRequest requestId hold (Hold.load scope key)
  rw [load_of_not_live h] at hsum
  exact hsum

theorem inv_reserved {ceilings : List Ceiling} {requested : ℕ} (hi : Inv cap m)
    (fresh : existingLive m requestId = none) (noneDue : ∀ hold ∈ m.byRequest.values, hold.isDue host o.now = false)
    (fits : verdict host m requested o.now (normalizeCeilings host ceilings) = none)
    (hcap : ∀ leg ∈ normalizeCeilings host ceilings, leg.cap = cap leg.scope leg.key ∧ leg.settled = none) :
    Inv cap ⟨m.byRequest.set requestId
      (newHold host requestId requested (normalizeCeilings host ceilings) o.now o.uuid)⟩ where
  keyed := forall_lookup_set rfl hi.keyed
  used := forall_lookup_set (fun hstate => by cases hstate) hi.used
  capped := by
    intro scope key
    rw [load_set_fresh fresh, newHold_load]
    split_ifs with hleg
    · obtain ⟨leg, hmem, rfl, rfl⟩ := hleg
      have hroom := room_of_verdict fits leg hmem
      rw [spent_add_held noneDue (hcap leg hmem).2, (hcap leg hmem).1] at hroom
      exact hroom
    · exact hi.capped scope key

theorem inv_undone (hi : Inv cap m) (fresh : existingLive m requestId = none) (hold : Hold τ) :
    Inv cap ⟨AList.erase requestId (m.byRequest.set requestId hold)⟩ := by
  have hlook : ∀ id other, AList.lookup id (AList.erase requestId (m.byRequest.set requestId hold)) = some other →
      m.byRequest.lookup id = some other := by
    intro id other h
    rw [lookup_erase_eq] at h
    split_ifs at h with hid
    rwa [lookup_set_ne _ _ hid] at h
  exact {
    keyed := fun id other h => hi.keyed id other (hlook id other h)
    used := fun id other h => hi.used id other (hlook id other h)
    capped := by
      intro scope key
      have herase := sum_erase_eq (m.byRequest.set requestId hold) requestId (Hold.load scope key)
      have hset := load_set_fresh fresh hold scope key
      have hcap := hi.capped scope key
      rw [lookup_set_self] at herase
      simp only [Option.elim_some] at herase
      unfold load at hset hcap ⊢
      dsimp only at hset ⊢
      omega }

/-- A settled hold never takes more than it reserved; the rest is its shortfall. -/
theorem consume_amounts (actual : Amount) (hold : Hold τ) : (hold.consume actual).consumed_amount ≤ hold.reserved
      ∧ (hold.reserved < wanted actual hold.reserved →
        (hold.consume actual).consumed_amount + (hold.consume actual).shortfall = wanted actual hold.reserved) := by
  unfold Hold.consume
  dsimp only
  constructor
  · split_ifs <;> omega
  · intro h
    rw [if_pos h, if_pos h]
    omega

theorem consume_load_le (actual : Amount) (opened : hold.state = .OPEN) (consumed_at : Option τ) (scope key : String) :
    ((hold.consume actual).stamp consumed_at).load scope key ≤ hold.load scope key := by
  have hused := (consume_amounts actual hold).1
  simp only [Hold.load, Hold.spent, Hold.reservedUnder, Hold.stamp, Hold.consume, Hold.hasLeg, opened] at hused ⊢
  by_cases hleg : hold.legs.any fun item => decide (item.scope = scope) && decide (item.key = key)
  · simpa [hleg] using hused
  · simp [hleg]

theorem inv_consumed {actual : Amount} (hi : Inv cap m) (found : m.byRequest.lookup requestId = some hold)
    (opened : hold.state = .OPEN) (consumed_at : Option τ) :
    Inv cap ⟨m.byRequest.set requestId ((hold.consume actual).stamp consumed_at)⟩ where
  keyed := forall_lookup_set (hi.keyed requestId hold found) hi.keyed
  used := forall_lookup_set (fun _ => (consume_amounts actual hold).1) hi.used
  capped := by
    intro scope key
    have hsum := sum_set m.byRequest requestId ((hold.consume actual).stamp consumed_at) (Hold.load scope key)
    have hcap := hi.capped scope key
    have hle := consume_load_le actual opened consumed_at scope key
    rw [found] at hsum
    simp only [Option.elim_some] at hsum
    unfold load at hcap ⊢
    dsimp only
    omega

theorem swept_released (released_at : Option τ) (found : m.byRequest.lookup requestId = some hold)
    (opened : hold.state = .OPEN) :
    Swept m ⟨m.byRequest.set requestId { hold with state := .RELEASED, released_at := released_at }⟩ :=
  Swept.set found (Or.inr ⟨opened, rfl, Or.inr rfl⟩)

/-- **STEP**: every operation keeps the invariant. -/
theorem exec_inv (hi : Inv cap s) (hcap : Capped host cap call) : Inv cap (exec host s o call).1 := by
  have hm : Inv cap (expire host s o.now o.sweepSaved).1 := (swept_expire _ s o.now o.sweepSaved).inv hi
  have hchange := exec_change host s o call
  generalize (expire host s o.now o.sweepSaved).1 = m at hm hchange
  generalize (exec host s o call).1 = s' at hchange ⊢
  cases hchange with
  | nothing => exact hm
  | reserved fresh noneDue fits => exact inv_reserved hm fresh noneDue fits hcap
  | undone hold fresh => exact inv_undone hm fresh hold
  | consumed consumed_at found opened => exact inv_consumed hm found opened consumed_at
  | released released_at found opened => exact (swept_released released_at found opened).inv hm

/-! ## Settled holds -/

/-- A settled hold is never written again. -/
theorem exec_settled {id : String} (hlook : s.byRequest.lookup id = some hold) (hused : hold.state = .CONSUMED) :
    (exec host s o call).1.byRequest.lookup id = some hold := by
  have hm : (expire host s o.now o.sweepSaved).1.byRequest.lookup id = some hold := by
    have hrel := (swept_expire host s o.now o.sweepSaved).lookup id
    rw [hlook] at hrel
    generalize (expire host s o.now o.sweepSaved).1.byRequest.lookup id = after at hrel
    cases hrel with
    | some hlapse =>
      rcases hlapse with rfl | ⟨hopen, -⟩
      · rfl
      · rw [hused] at hopen
        cases hopen
  have hchange := exec_change host s o call
  generalize (expire host s o.now o.sweepSaved).1 = m at hm hchange
  generalize (exec host s o call).1 = s' at hchange ⊢
  have hlive : existingLive m id = some hold := by
    simp [existingLive, hm, hused]
  cases hchange with
  | nothing => exact hm
  | @reserved requestId amount ceilings requested fresh noneDue fits =>
    have hne : id ≠ requestId := by
      rintro rfl
      rw [fresh] at hlive
      cases hlive
    rw [lookup_set_ne _ _ hne]
    exact hm
  | @undone requestId amount ceilings written fresh =>
    have hne : id ≠ requestId := by
      rintro rfl
      rw [fresh] at hlive
      cases hlive
    rw [lookup_erase_eq, if_neg hne, lookup_set_ne _ _ hne]
    exact hm
  | @consumed requestId actual old consumed_at found opened | @released requestId old released_at found opened =>
    have hne : id ≠ requestId := by
      rintro rfl
      rw [hm, Option.some.injEq] at found
      rw [← found, hused] at opened
      cases opened
    rw [lookup_set_ne _ _ hne]
    exact hm

/-- The amounts a settle of `actual` leaves on a hold. -/
def SettledAt (actual : Amount) (hold : Hold τ) : Prop :=
  ∀ asked, parseAtomic actual = some asked → hold.reserved < asked → hold.consumed_amount + hold.shortfall = asked

theorem settledAt_consume (actual : Amount) (hold : Hold τ) (consumed_at : Option τ) :
    SettledAt actual ((hold.consume actual).stamp consumed_at) := by
  intro asked hasked hlt
  have hwanted : wanted actual hold.reserved = asked := by
    rw [wanted, hasked, Option.getD_some]
  have hsum := (consume_amounts actual hold).2
  rw [hwanted] at hsum
  exact hsum hlt

/-- Only a settle of its own id settles a hold. -/
theorem exec_origin {id : String} (hlook : (exec host s o call).1.byRequest.lookup id = some hold)
    (hused : hold.state = .CONSUMED) : s.byRequest.lookup id = some hold
      ∨ ∃ actual, call = .consume id actual ∧ SettledAt actual hold
        ∧ ∀ old, s.byRequest.lookup id = some old → old.state = .OPEN := by
  have hswept := swept_expire host s o.now o.sweepSaved
  have hchange := exec_change host s o call
  generalize (expire host s o.now o.sweepSaved).1 = m at hswept hchange
  generalize (exec host s o call).1 = s' at hchange hlook
  -- a settled hold of the swept store was there before the sweep
  have hback : m.byRequest.lookup id = some hold → s.byRequest.lookup id = some hold := by
    intro hm
    have hrel := hswept.lookup id
    rw [hm] at hrel
    generalize s.byRequest.lookup id = prior at hrel ⊢
    cases hrel with
    | some hlapse =>
      rcases hlapse with rfl | ⟨-, -, hlost⟩
      · rfl
      · rw [hused] at hlost
        simp at hlost
  cases hchange with
  | nothing => exact Or.inl (hback hlook)
  | reserved | released =>
    rw [lookup_set] at hlook
    split_ifs at hlook with hid
    · cases hlook
      cases hused
    · exact Or.inl (hback hlook)
  | @undone requestId amount ceilings written fresh =>
    rw [lookup_erase_eq] at hlook
    split_ifs at hlook with hid
    rw [lookup_set_ne _ _ hid] at hlook
    exact Or.inl (hback hlook)
  | @consumed requestId actual old consumed_at found opened =>
    rw [lookup_set] at hlook
    split_ifs at hlook with hid
    · subst hid
      cases hlook
      refine Or.inr ⟨actual, rfl, settledAt_consume actual old consumed_at, fun prior hprior => ?_⟩
      have hrel := hswept.lookup id
      rw [hprior, found] at hrel
      cases hrel with
      | some hlapse =>
        rcases hlapse with rfl | ⟨hopen, -⟩
        · exact opened
        · exact hopen
    · exact Or.inl (hback hlook)

/-! ## Runs -/

theorem run_concat (calls : List (Call × Outside τ)) (c : Call × Outside τ) :
    run host (calls ++ [c]) = (exec host (run host calls) c.2 c.1).1 := by
  simp [run]

/-- **RUN**: the invariant holds after any list of calls. -/
theorem run_inv (calls : List (Call × Outside τ)) (hcap : ∀ c ∈ calls, Capped host cap c.1) :
    Inv cap (run host calls) := by
  induction calls using List.reverseRecOn with
  | nil =>
    exact inv_empty cap
  | append_singleton calls c ih =>
    rw [run_concat]
    exact exec_inv (ih fun d hd => hcap d (List.mem_append_left _ hd)) (hcap c (by simp))

theorem run_settled {before : List (Call × Outside τ)} {id : String}
    (hlook : (run host before).byRequest.lookup id = some hold) (hused : hold.state = .CONSUMED)
    (after : List (Call × Outside τ)) : (run host (before ++ after)).byRequest.lookup id = some hold := by
  induction after using List.reverseRecOn with
  | nil =>
    rwa [List.append_nil]
  | append_singleton after c ih =>
    rw [← List.append_assoc, run_concat]
    exact exec_settled ih hused

/-- The settle call of a run that settled this hold: the id's hold was still
    open before it and is this one after it. -/
def SettledBy (host : Host τ) (calls : List (Call × Outside τ)) (hold : Hold τ) : Prop :=
  ∃ before actual o after, calls = before ++ (.consume hold.request_id actual, o) :: after
    ∧ (∀ old, (run host before).byRequest.lookup hold.request_id = some old → old.state = .OPEN)
    ∧ (run host (before ++ [(.consume hold.request_id actual, o)])).byRequest.lookup hold.request_id = some hold
    ∧ SettledAt actual hold

theorem run_settledBy (calls : List (Call × Outside τ))
    (hlook : (run host calls).byRequest.lookup hold.request_id = some hold) (hused : hold.state = .CONSUMED) :
    SettledBy host calls hold := by
  induction calls using List.reverseRecOn with
  | nil =>
    simp [run, emptyStore] at hlook
  | append_singleton calls c ih =>
    have hnow := hlook
    rw [run_concat] at hlook
    rcases exec_origin hlook hused with hprior | ⟨actual, hcall, hat, hopen⟩
    · obtain ⟨before, actual, o, after, rfl, hbefore, hafter, hat⟩ := ih hprior
      exact ⟨before, actual, o, after ++ [c], by simp, hbefore, hafter, hat⟩
    · have hc : c = (.consume hold.request_id actual, c.2) := by
        rw [← hcall]
      rw [hc] at hnow
      exact ⟨calls, actual, c.2, [], by rw [hc], hopen, hnow, hat⟩

theorem request_ids_nodup (hi : Inv cap s) : (s.byRequest.values.map Hold.request_id).Nodup := by
  have hkeys : s.byRequest.values.map Hold.request_id = s.byRequest.keys := by
    unfold OrderedMap.values AList.keys List.keys
    rw [List.map_map]
    refine List.map_congr_left fun e he => ?_
    exact hi.keyed e.1 e.2 (AList.mem_lookup_iff.2 he)
  rw [hkeys]
  exact s.byRequest.keys_nodup

/-- **CEILING**: after any calls, under any clock and any failed saves, a
    ceiling's settled and open amounts stay within its cap, a settled hold
    took at most what it reserved and is never written again, and each
    request id has one hold. -/
theorem ceiling_kept (host : Host τ) (cap : String → String → ℕ) (calls : List (Call × Outside τ))
    (hcap : ∀ c ∈ calls, Capped host cap c.1) : (∀ scope key, (run host calls).byRequest.sum (Hold.spent scope key)
        + (run host calls).byRequest.sum (Hold.reservedUnder scope key) ≤ cap scope key)
      ∧ (∀ hold ∈ (run host calls).byRequest.values, hold.state = .CONSUMED →
        hold.consumed_amount ≤ hold.reserved ∧ SettledBy host calls hold)
      ∧ (∀ before after, calls = before ++ after → ∀ id hold,
        (run host before).byRequest.lookup id = some hold → hold.state = .CONSUMED →
          (run host calls).byRequest.lookup id = some hold)
      ∧ ((run host calls).byRequest.values.map Hold.request_id).Nodup := by
  have hi : Inv cap (run host calls) := run_inv calls hcap
  refine ⟨?_, ?_, ?_, request_ids_nodup hi⟩
  · intro scope key
    rw [← load_eq]
    exact hi.capped scope key
  · intro hold hmem hused
    obtain ⟨id, hlook⟩ := (mem_values_iff _ _).1 hmem
    have hid := hi.keyed id hold hlook
    subst hid
    exact ⟨hi.used _ hold hlook hused, run_settledBy calls hlook hused⟩
  · rintro before after rfl id hold hlook hused
    exact run_settled hlook hused after

instance (cap : String → String → ℕ) (call : Call) : Decidable (Capped host cap call) :=
  match call with
  | .reserve _ _ ceilings =>
    inferInstanceAs (Decidable (∀ leg ∈ normalizeCeilings host ceilings,
      leg.cap = cap leg.scope leg.key ∧ leg.settled = none))
  | .consume .. => isTrue trivial
  | .release .. => isTrue trivial
  | .expireDue => isTrue trivial
  | .preview .. => isTrue trivial
  | .snapshot => isTrue trivial
  | .openReserved .. => isTrue trivial

/-- Two calls share one session ceiling; the first overshoots, and its id comes back after a clock
    that ran backwards. -/
def sampleCalls : List (Call × Outside ℤ) :=
  let cap : Ceiling := { scope := some "session", key := some "d", cap := .bigint 100, settled := none }
  [ (.reserve "a" (.bigint 60) [cap], { now := 1000, sweepSaved := true, saved := true, uuid := "1" }),
    (.reserve "b" (.bigint 50) [cap], { now := 10, sweepSaved := true, saved := true, uuid := "2" }),
    (.reserve "b" (.bigint 40) [cap, cap], { now := 10, sweepSaved := true, saved := false, uuid := "3" }),
    (.reserve "b" (.bigint 40) [cap], { now := 10, sweepSaved := true, saved := true, uuid := "4" }),
    (.consume "a" (.bigint 75), { now := 500, sweepSaved := true, saved := true, uuid := "5" }),
    (.reserve "a" (.bigint 1) [cap], { now := 600, sweepSaved := true, saved := true, uuid := "6" }) ]

theorem ceiling_kept_sample : (run (millisHost 600 id) sampleCalls).byRequest.sum (Hold.spent "session" "d") = 60
      ∧ (run (millisHost 600 id) sampleCalls).byRequest.sum (Hold.spent "session" "d")
        + (run (millisHost 600 id) sampleCalls).byRequest.sum (Hold.reservedUnder "session" "d") ≤ 100 :=
  ⟨by decide +kernel,
    (ceiling_kept (millisHost 600 id) (fun _ _ => 100) sampleCalls (by decide +kernel)).1 "session" "d"⟩

end SpendHold
