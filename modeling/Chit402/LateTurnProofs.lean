import Chit402.LateLeaseProofs
import Chit402.LateOnceProofs

/-! # Turns on a late row

    Where leases are kept, the runs on a row take turns: at any time at most
    one of them holds a lease that has not ended, and until then the row is
    as that run left it.  So no run signs a signed row, and a row is signed
    once. -/

namespace LateTurn

open Interleaving LateStore LateIssue LateLease LateOnce Trace

variable {ids : ℕ → String} {s : World × Watch} {n m : ℕ} {o : Op} {e : Event} {k k' k₀ : Stand}
    {allowed : List LateState}
  {target : LateState} {patch : LatePatch} {rec : LateRow}

/-! ## The invariant -/

/-- What holds of the rows: a signed row is being published, a clock was read in the past, and until a lease
    ends nobody else holds one and the row is under it. -/
structure Leases (ids : ℕ → String) (s : World × Watch) : Prop where
  signed : ∀ n, ∀ row ∈ s.1.late.lookup (ids n), row.jws.isSome → row.state = .issuing ∨ row.state = .issued
  clock : ∀ n, ∀ now ∈ s.2.clock n, now ≤ s.2.latest
  held : ∀ n, ∀ ends ∈ s.2.lease n, s.2.latest < ends → ∀ row ∈ s.1.late.lookup (ids n),
    (row.state = .issuing ∨ row.state = .issued) ∧ row.lease_until = ends
  one : ∀ n m, n ≠ m → ids n = ids m → ∀ ends ∈ s.2.lease n, ∀ ends' ∈ s.2.lease m, s.2.latest < ends →
    ends' ≤ s.2.latest

/-- What a run that has looked at its row relies on. -/
structure Looked (ids : ℕ → String) (n : ℕ) (won : Bool) (signed : Option LateState) (s : World × Watch) : Prop where
  timed : (s.2.clock n).isSome
  /-- A row whose lease had ended by the run's clock has no signature, if it had none when the run looked. -/
  early : won = true ∨ signed = none → ∀ now ∈ s.2.clock n, ∀ row ∈ s.1.late.lookup (ids n), row.lease_until ≤ now →
    row.jws = none
  free : won = false → signed = none → s.2.lease n = none
  held : won = true → ∃ ends, s.2.lease n = some ends ∧ (s.2.latest < ends → ∀ row ∈ s.1.late.lookup (ids n),
    row.state = .issuing ∧ row.jws = none)
  signed : ∀ state ∈ signed, (state = .issuing ∨ state = .issued) ∧ (s.1.jwsOn (ids n)).isSome

/-- What a run relies on. -/
def Stands (ids : ℕ → String) (n : ℕ) (k : Stand) (s : World × Watch) : Prop :=
  match k with
  | .idle => s.2.lease n = none
  | .timed => (s.2.clock n).isSome ∧ s.2.lease n = none
  | .looked won signed => Looked ids n won signed s
  | .finished => True
  | .gone => s.1.late.lookup (ids n) = none

/-! ## One compare-and-set -/

/-- What a compare-and-set that takes effect at a time meets, and what it may write. -/
inductive Turn (k : Stand) (allowed : List LateState) (time : ℤ) (held : Option ℤ) (rec : LateRow)
    (target : LateState) (patch : LatePatch) : Prop
  | moved (hstate : rec.state ≠ .issuing ∧ rec.state ≠ .issued) (hrec : rec.jws = none) (hjws : patch.jws = none)
      (hlease : KeepsLease patch)
  | won (hstate : rec.state ≠ .issuing ∧ rec.state ≠ .issued) (hrec : rec.jws = none) (hjws : patch.jws = none)
      (htarget : target = .issuing) (ends : ℤ) (hafter : leaseAfter patch held = some ends)
      (huntil : patch.lease_until = some ends)
  | taken (hended : rec.lease_until ≤ time) (hrec : rec.jws = none) (hjws : patch.jws = some none)
      (hafter : leaseAfter patch held = none)
  | holding (ends : ℤ) (hheld : held = some ends) (hlive : time < ends) (huntil : rec.lease_until = ends)
      (hrec : rec.jws = none) (htarget : target = .issuing ∨ (target = .issued ∧ patch.jws = none))
      (hlease : KeepsLease patch)
  | given (ends : ℤ) (hheld : held = some ends) (hlive : time < ends) (hrec : rec.jws = none)
      (hjws : patch.jws.join = none) (hafter : leaseAfter patch held = none)
  | published (hrec : rec.jws.isSome) (htarget : target = .issuing ∨ target = .issued) (hjws : patch.jws = none)
      (hlease : KeepsLease patch)
      (hback : (.issued ∈ allowed ∧ ∃ won, k = .looked won (some target)) ∨ (target = .issued ∧ .issued ∉ allowed))

theorem mem_target (h : target? s.1 e (ids n) allowed patch = some rec) :
    rec ∈ s.1.late.lookup (ids n) ∧ rec.state ∈ allowed ∧ e.fails ≠ some false
      ∧ casRow s.1.late (ids n) allowed patch = some rec := by
  unfold target? at h
  split_ifs at h with hfails
  obtain ⟨hlookup, hallowed, -⟩ := casRow_eq_some.1 h
  exact ⟨hlookup, hallowed, hfails, h⟩

/-- A run that holds the row in its own time finds it as it left it. -/
theorem Looked.live {signed : Option LateState} (h : Looked ids n true signed s) (hinv : Leases ids s)
    (htime : s.2.latest ≤ e.time) (hends : ∀ ends ∈ s.2.lease n, e.time < ends) :
    ∃ ends, s.2.lease n = some ends ∧ e.time < ends ∧ ∀ row ∈ s.1.late.lookup (ids n),
      row.state = .issuing ∧ row.jws = none ∧ row.lease_until = ends := by
  obtain ⟨ends, hlease, hheld⟩ := h.held rfl
  have hlive : e.time < ends := hends ends hlease
  refine ⟨ends, hlease, hlive, ?_⟩
  intro row hrow
  obtain ⟨hstate, hjws⟩ := hheld (htime.trans_lt hlive) row hrow
  exact ⟨hstate, hjws, (hinv.held n ends hlease (htime.trans_lt hlive) row hrow).2⟩

/-- **STEP**: a compare-and-set that keeps to the leases takes its turn. -/
theorem turn_of_write (hinv : Leases ids s) (hk : Stands ids n k s) (hwrite : Write k allowed target patch)
    (hbylease : ByLease s n (.casLate (ids n) allowed target patch) e)
    (htarget : target? s.1 e (ids n) allowed patch = some rec) :
    Turn k allowed e.time (s.2.lease n) rec target patch := by
  obtain ⟨hrec, hallowed, -⟩ := mem_target htarget
  obtain ⟨htime, hlease⟩ := hbylease
  cases hwrite with
  | move hopen hjws hkeeps =>
    have hstate : rec.state ≠ .issuing ∧ rec.state ≠ .issued := by
      constructor
      · rintro h
        exact hopen.1 (h ▸ hallowed)
      · rintro h
        exact hopen.2 (h ▸ hallowed)
    refine Turn.moved hstate ?_ hjws hkeeps
    by_contra hsigned
    rcases hinv.signed n rec hrec (Option.isSome_iff_ne_none.2 hsigned) with h | h
    · exact hstate.1 h
    · exact hstate.2 h
  | win hjws howner hends =>
    have hconfirmed : rec.state = .confirmed := List.mem_singleton.1 hallowed
    refine Turn.won ?_ ?_ hjws rfl _ ?_ hends
    · rw [hconfirmed]
      exact ⟨nofun, nofun⟩
    · by_contra hsigned
      have hstate := hinv.signed n rec hrec (Option.isSome_iff_ne_none.2 hsigned)
      rw [hconfirmed] at hstate
      rcases hstate with h | h
      · cases h
      · cases h
    · rw [leaseAfter, howner, hends]
      rfl
  | takeBack hjws howner =>
    obtain ⟨now, hnow⟩ := Option.isSome_iff_exists.1 hk.timed
    have hended : rec.lease_until ≤ now := (hlease rfl rec htarget).2 (hk.free rfl rfl) now hnow
    refine Turn.taken ((hended.trans (hinv.clock n now hnow)).trans htime) ?_ hjws ?_
    · exact hk.early (Or.inr rfl) now hnow rec hrec hended
    · rw [leaseAfter, howner]
      rfl
  | hold hto hjws hkeeps =>
    obtain ⟨ends, hheld, hlive, hrow⟩ := hk.live hinv htime (hlease rfl rec htarget).1
    obtain ⟨-, hunsigned, huntil⟩ := hrow rec hrec
    exact Turn.holding ends hheld hlive huntil hunsigned hto hkeeps
  | giveBack hjws howner =>
    obtain ⟨ends, hheld, hlive, hrow⟩ := hk.live hinv htime (hlease rfl rec htarget).1
    obtain ⟨-, hunsigned, -⟩ := hrow rec hrec
    refine Turn.given ends hheld hlive hunsigned hjws ?_
    rw [leaseAfter, howner]
    rfl
  | publish hjws hkeeps =>
    obtain ⟨hstate, hsigned⟩ := hk.signed target rfl
    rw [World.jwsOn, hrec, Option.bind_some] at hsigned
    exact Turn.published hsigned hstate hjws hkeeps (Or.inl ⟨by decide, _, rfl⟩)
  | issue hjws hkeeps =>
    obtain ⟨-, hsigned⟩ := hk.signed _ rfl
    rw [World.jwsOn, hrec, Option.bind_some] at hsigned
    exact Turn.published hsigned (Or.inr rfl) hjws hkeeps (Or.inr ⟨rfl, by decide⟩)
  | gone =>
    rw [show s.1.late.lookup (ids n) = none from hk] at hrec
    cases hrec

/-- No turn writes or clears a signature that is there. -/
theorem Turn.unsigned {time : ℤ} {held : Option ℤ} (h : Turn k allowed time held rec target patch)
    (hjws : patch.jws.isSome) :
    rec.jws = none := by
  cases h with
  | moved _ _ hnone => rw [hnone] at hjws; cases hjws
  | won _ _ hnone => rw [hnone] at hjws; cases hjws
  | taken _ hrec => exact hrec
  | holding _ _ _ _ hrec => exact hrec
  | given _ _ _ hrec => exact hrec
  | published _ _ hnone => rw [hnone] at hjws; cases hjws

/-! ## What every operation keeps -/

/-- The state after a compare-and-set that takes effect. -/
theorem watched_cas (target : LateState) (htarget : target? s.1 e (ids n) allowed patch = some rec) :
    let s' := (watched s n (.casLate (ids n) allowed target patch) e).1
    s'.1.late.lookup (ids n) = some (rec.assign patch target)
      ∧ (∀ key, key ≠ ids n → s'.1.late.lookup key = s.1.late.lookup key) ∧ s'.2.latest = e.time
      ∧ s'.2.clock = s.2.clock ∧ s'.2.lease = Function.update s.2.lease n (leaseAfter patch (s.2.lease n)) := by
  obtain ⟨-, -, hfails, hcas⟩ := mem_target htarget
  have hexec : (exec s.1 n (.casLate (ids n) allowed target patch) e).1
      = (effect s.1 n (.casLate (ids n) allowed target patch) e).1 := by
    rcases exec_cases s.1 n (.casLate (ids n) allowed target patch) e with ⟨h, -⟩ | ⟨h, -⟩ | ⟨-, h⟩
    · rw [h]
    · rw [h]
    · exact (hfails h).elim
  dsimp only [watched]
  rw [hexec]
  refine ⟨?_, ?_, rfl, rfl, ?_⟩
  · rw [(effect_cas ..).1, hcas]
    rfl
  · intro key hne
    refine (effect_late ?_).1
    rintro ⟨⟩
    exact hne rfl
  · dsimp only [Watch.next]
    rw [htarget]
    rfl

/-- An operation that changes no row of the pool. -/
def Unmoved (s : World × Watch) (o : Op) (e : Event) : Prop :=
  match o with
  | .casLate id allowed _ patch => target? s.1 e id allowed patch = none
  | _ => True

theorem watched_unmoved (h : Unmoved s o e) :
    let s' := (watched s n o e).1
    (∀ key, s'.1.late.lookup key = s.1.late.lookup key) ∧ s'.2.latest = e.time ∧ s'.2.lease = s.2.lease := by
  refine ⟨?_, rfl, ?_⟩
  · intro key
    refine exec_keeps (fun w => w.late.lookup key = s.1.late.lookup key) rfl ?_
    intro hfails
    by_cases hrow : o.row = some key
    · cases o with
      | casLate id allowed target patch =>
        cases hrow
        unfold Unmoved target? at h
        dsimp only at h
        rw [if_neg hfails] at h
        rw [(effect_cas ..).1, h]
        rfl
      | _ => cases hrow
    · exact (effect_late hrow).1
  · cases o with
    | casLate id allowed target patch =>
      dsimp only [watched, Watch.next]
      rw [show target? s.1 e id allowed patch = none from h]
      rfl
    | _ => rfl

/-- A run reads its clock once. -/
theorem clock_watched (hm : (s.2.clock m).isSome ∨ m ≠ n) : (watched s n o e).1.2.clock m = s.2.clock m := by
  cases o with
  | now =>
    dsimp only [watched, Watch.next]
    by_cases hmn : m = n
    · subst hmn
      rcases hm with hsome | hm
      · obtain ⟨now, hnow⟩ := Option.isSome_iff_exists.1 hsome
        rw [Function.update_self, hnow]
        rfl
      · exact (hm rfl).elim
    · rw [Function.update_of_ne hmn]
  | _ => rfl

theorem mem_clock_watched {now : ℤ} (h : now ∈ (watched s n o e).1.2.clock m) : now ∈ s.2.clock m ∨ now = e.time := by
  cases o with
  | now =>
    dsimp only [watched, Watch.next] at h
    by_cases hmn : m = n
    · subst hmn
      rw [Function.update_self] at h
      rcases Option.or_eq_some_iff.1 h with h | ⟨-, h⟩
      · exact Or.inl h
      · exact Or.inr (Option.some.inj h).symm
    · rw [Function.update_of_ne hmn] at h
      exact Or.inl h
  | _ => exact Or.inl h

/-- An operation that moves no row keeps the invariant. -/
theorem leases_unmoved (h : Unmoved s o e) (htime : s.2.latest ≤ e.time) (hinv : Leases ids s) :
    Leases ids (watched s n o e).1 := by
  obtain ⟨hrows, hlatest, hlease⟩ := watched_unmoved h
  refine ⟨?_, ?_, ?_, ?_⟩
  · intro n row hrow
    rw [hrows] at hrow
    exact hinv.signed n row hrow
  · intro m now hnow
    rw [hlatest]
    rcases mem_clock_watched hnow with hold | rfl
    · exact (hinv.clock m now hold).trans htime
    · exact le_rfl
  · intro m ends hends hlive row hrow
    rw [hlease] at hends
    rw [hlatest] at hlive
    rw [hrows] at hrow
    exact hinv.held m ends hends (htime.trans_lt hlive) row hrow
  · intro m m' hne hids ends hends ends' hends' hlive
    rw [hlease] at hends hends'
    rw [hlatest] at hlive ⊢
    exact (hinv.one m m' hne hids ends hends ends' hends' (htime.trans_lt hlive)).trans htime

/-- And what every run relies on. -/
theorem looked_unmoved {won : Bool} {signed : Option LateState} (h : Unmoved s o e) (htime : s.2.latest ≤ e.time)
    (hk : Looked ids m won signed s) : Looked ids m won signed (watched s n o e).1 := by
  obtain ⟨hrows, hlatest, hlease⟩ := watched_unmoved h
  obtain ⟨htimed, hearly, hfree, hheld, hsigned⟩ := hk
  have hclock : (watched s n o e).1.2.clock m = s.2.clock m := clock_watched (Or.inl htimed)
  refine ⟨?_, ?_, ?_, ?_, ?_⟩
  · rw [hclock]
    exact htimed
  · rw [hclock, hrows]
    exact hearly
  · rw [hlease]
    exact hfree
  · rw [hlease, hrows, hlatest]
    intro hwon
    obtain ⟨ends, hends, hrow⟩ := hheld hwon
    exact ⟨ends, hends, fun hlive => hrow (htime.trans_lt hlive)⟩
  · unfold World.jwsOn
    rw [hrows]
    exact hsigned

theorem stands_unmoved (h : Unmoved s o e) (htime : s.2.latest ≤ e.time) (hk : Stands ids m k s) :
    Stands ids m k (watched s n o e).1 := by
  have hlease : (watched s n o e).1.2.lease = s.2.lease := (watched_unmoved h).2.2
  cases k with
  | idle => exact (congrFun hlease m).trans hk
  | timed =>
    obtain ⟨htimed, hfree⟩ := hk
    refine ⟨?_, (congrFun hlease m).trans hfree⟩
    rw [clock_watched (Or.inl htimed)]
    exact htimed
  | looked won signed => exact looked_unmoved h htime hk
  | finished => trivial
  | gone => exact ((watched_unmoved h).1 _).trans hk

/-! ## What a turn keeps -/

theorem keeps_leaseAfter {held : Option ℤ} (h : KeepsLease patch) : leaseAfter patch held = held := by
  rw [leaseAfter, h.1]

theorem assign_lease (h : KeepsLease patch) : (rec.assign patch target).lease_until = rec.lease_until := by
  show patch.lease_until.getD rec.lease_until = rec.lease_until
  rw [h.2]
  rfl

theorem assign_jws (h : patch.jws = none) : (rec.assign patch target).jws = rec.jws := by
  show patch.jws.getD rec.jws = rec.jws
  rw [h]
  rfl

/-- A turn leaves the row without a signature, or leaves its lease: then it signs in time or keeps the signature. -/
theorem Turn.after {time : ℤ} {held : Option ℤ} (h : Turn k allowed time held rec target patch) :
    (rec.assign patch target).jws = none ∨ ((target = .issuing ∨ target = .issued)
      ∧ (rec.assign patch target).lease_until = rec.lease_until
      ∧ (time < rec.lease_until ∨ (rec.assign patch target).jws = rec.jws)) := by
  cases h with
  | moved _ hrec hjws => exact Or.inl ((assign_jws hjws).trans hrec)
  | won _ hrec hjws => exact Or.inl ((assign_jws hjws).trans hrec)
  | taken _ _ hjws =>
    left
    show patch.jws.getD rec.jws = none
    rw [hjws]
    rfl
  | holding ends _ hlive huntil _ hto hkeeps =>
    exact Or.inr ⟨hto.imp (fun h => h) And.left, assign_lease hkeeps, Or.inl (huntil ▸ hlive)⟩
  | given _ _ _ hrec hjws =>
    left
    show patch.jws.getD rec.jws = none
    rw [hrec]
    cases hpatch : patch.jws with
    | none => rfl
    | some jws =>
      rw [hpatch] at hjws
      exact hjws
  | published _ hto hjws hkeeps => exact Or.inr ⟨hto, assign_lease hkeeps, Or.inr (assign_jws hjws)⟩

/-- While another run holds the row in its own time, only a publication can come between. -/
theorem Turn.beside (hturn : Turn k₀ allowed e.time (s.2.lease n) rec target patch) (hinv : Leases ids s)
    (htime : s.2.latest ≤ e.time) (hrec : rec ∈ s.1.late.lookup (ids n)) (hne : m ≠ n) (hids : ids m = ids n) {ends : ℤ}
    (hends : ends ∈ s.2.lease m) (hlive : e.time < ends) :
    rec.jws.isSome ∧ (target = .issuing ∨ target = .issued) ∧ KeepsLease patch ∧ rec.lease_until = ends := by
  obtain ⟨hstate, huntil⟩ := hinv.held m ends hends (htime.trans_lt hlive) rec (by rw [hids]; exact hrec)
  have hown : ∀ ends', s.2.lease n = some ends' → ¬ e.time < ends' := by
    intro ends' hends' hlive'
    have hover := hinv.one m n hne hids ends hends ends' hends' (htime.trans_lt hlive)
    omega
  cases hturn with
  | moved hother =>
    rcases hstate with h | h
    · exact (hother.1 h).elim
    · exact (hother.2 h).elim
  | won hother =>
    rcases hstate with h | h
    · exact (hother.1 h).elim
    · exact (hother.2 h).elim
  | taken hended => omega
  | holding ends' hheld hlive' => exact (hown ends' hheld hlive').elim
  | given ends' hheld hlive' => exact (hown ends' hheld hlive').elim
  | published hsigned hto _ hkeeps => exact ⟨hsigned, hto, hkeeps, huntil⟩

/-- **STEP**: a turn keeps the invariant. -/
theorem leases_turn (hinv : Leases ids s) (htime : s.2.latest ≤ e.time)
    (htarget : target? s.1 e (ids n) allowed patch = some rec)
      (hturn : Turn k₀ allowed e.time (s.2.lease n) rec target patch) :
    Leases ids (watched s n (.casLate (ids n) allowed target patch) e).1 := by
  have hrec : rec ∈ s.1.late.lookup (ids n) := (mem_target htarget).1
  obtain ⟨hrow, hrows, hlatest, hclock, hlease⟩ := watched_cas target htarget
  generalize (watched s n (.casLate (ids n) allowed target patch) e).1 = s' at *
  have hother : ∀ m, m ≠ n → s'.2.lease m = s.2.lease m := by
    intro m hne
    rw [hlease, Function.update_of_ne hne]
  have hself : s'.2.lease n = leaseAfter patch (s.2.lease n) := by
    rw [hlease, Function.update_self]
  constructor
  case signed =>
    intro m row hmem hsigned
    by_cases hids : ids m = ids n
    · rw [hids, hrow] at hmem
      cases hmem
      rcases hturn.after with hnone | ⟨hto, -⟩
      · rw [hnone] at hsigned
        cases hsigned
      · exact hto
    · rw [hrows _ hids] at hmem
      exact hinv.signed m row hmem hsigned
  case clock =>
    intro m now hnow
    rw [hclock] at hnow
    rw [hlatest]
    exact (hinv.clock m now hnow).trans htime
  case held =>
    intro m ends hends hlive row hmem
    rw [hlatest] at hlive
    by_cases hids : ids m = ids n
    · rw [hids, hrow] at hmem
      cases hmem
      by_cases hmn : m = n
      · subst hmn
        rw [hself] at hends
        have hkept : ∀ {held : Option ℤ}, KeepsLease patch → leaseAfter patch held = some ends → held = some ends := by
          intro held hkeeps hafter
          rw [keeps_leaseAfter hkeeps] at hafter
          exact hafter
        cases hturn with
        | moved hstate _ _ hkeeps =>
          obtain ⟨hopen, -⟩ := hinv.held m ends (hkept hkeeps hends) (htime.trans_lt hlive) rec hrec
          rcases hopen with h | h
          · exact (hstate.1 h).elim
          · exact (hstate.2 h).elim
        | won _ _ _ hto ends' hafter huntil =>
          rw [hafter] at hends
          cases hends
          refine ⟨Or.inl hto, ?_⟩
          show patch.lease_until.getD rec.lease_until = ends
          rw [huntil]
          rfl
        | taken _ _ _ hafter => rw [hafter] at hends; cases hends
        | holding ends' hheld _ huntil _ hto hkeeps =>
          have hsame := hkept hkeeps hends
          rw [hheld] at hsame
          cases hsame
          rw [assign_lease hkeeps]
          exact ⟨hto.imp (fun h => h) And.left, huntil⟩
        | given _ _ _ _ _ hafter => rw [hafter] at hends; cases hends
        | published _ hto _ hkeeps =>
          obtain ⟨-, huntil⟩ := hinv.held m ends (hkept hkeeps hends) (htime.trans_lt hlive) rec hrec
          rw [assign_lease hkeeps]
          exact ⟨hto, huntil⟩
      · rw [hother m hmn] at hends
        obtain ⟨-, hto, hkeeps, huntil⟩ := hturn.beside hinv htime hrec hmn hids hends hlive
        rw [assign_lease hkeeps]
        exact ⟨hto, huntil⟩
    · rw [hrows _ hids] at hmem
      rw [hother m fun h => hids (congrArg ids h)] at hends
      exact hinv.held m ends hends (htime.trans_lt hlive) row hmem
  case one =>
    intro m m' hne hids ends hends ends' hends' hlive
    rw [hlatest] at hlive ⊢
    by_contra hlive'
    -- whichever of the two is the run of the turn, it holds the lease it held before
    have hbefore : ∀ m m', m ≠ m' → ids m = ids m' → ∀ ends ∈ s'.2.lease m, ∀ ends' ∈ s'.2.lease m', e.time < ends →
        e.time < ends' → s.2.lease m = some ends := by
      intro m m' hne hids ends hends ends' hends' hlive hlive'
      by_cases hmn : m = n
      · subst hmn
        rw [hother m' hne.symm] at hends'
        obtain ⟨-, -, hkeeps, -⟩ := hturn.beside hinv htime hrec hne.symm hids.symm hends' hlive'
        rw [hself, keeps_leaseAfter hkeeps] at hends
        exact hends
      · rw [hother m hmn] at hends
        exact hends
    have hold := hbefore m m' hne hids ends hends ends' hends' hlive (not_le.1 hlive')
    have hold' := hbefore m' m hne.symm hids.symm ends' hends' ends hends (not_le.1 hlive') hlive
    have hover := hinv.one m m' hne hids ends hold ends' hold' (htime.trans_lt hlive)
    exact hlive' (hover.trans htime)

variable {won : Bool} {signed : Option LateState}

/-- A turn of any run keeps what a run on the row relies on, but for its own lease. -/
theorem looked_turn (hinv : Leases ids s) (htime : s.2.latest ≤ e.time)
    (htarget : target? s.1 e (ids n) allowed patch = some rec)
      (hturn : Turn k₀ allowed e.time (s.2.lease n) rec target patch)
    (hids : ids m = ids n) (hk : Looked ids m won signed s)
    (hlease : (watched s n (.casLate (ids n) allowed target patch) e).1.2.lease m = s.2.lease m)
    (hheld : won = true → ∀ ends ∈ s.2.lease m, e.time < ends → rec.jws = none → rec.state = .issuing →
      target = .issuing ∧ patch.jws = none) :
    Looked ids m won signed (watched s n (.casLate (ids n) allowed target patch) e).1 := by
  have hrec : rec ∈ s.1.late.lookup (ids n) := (mem_target htarget).1
  obtain ⟨hrow, -, hlatest, hclock, -⟩ := watched_cas target htarget
  obtain ⟨htimed, hearly, hfree, hlive, hsigned⟩ := hk
  generalize (watched s n (.casLate (ids n) allowed target patch) e).1 = s' at *
  constructor
  case timed =>
    rw [hclock]
    exact htimed
  case early =>
    rw [hclock, hids, hrow]
    rintro hor now hnow row ⟨⟩ hended
    rcases hturn.after with hnone | ⟨-, hlease, hlive | hsame⟩
    · exact hnone
    · rw [hlease] at hended
      have hpast := hinv.clock m now hnow
      omega
    · rw [hlease] at hended
      rw [hsame]
      exact hearly hor now hnow rec (by rw [hids]; exact hrec) hended
  case free =>
    rw [hlease]
    exact hfree
  case held =>
    rw [hlease, hlatest, hids, hrow]
    intro hwon
    obtain ⟨ends, hends, hrow⟩ := hlive hwon
    refine ⟨ends, hends, ?_⟩
    rintro hlate row ⟨⟩
    obtain ⟨hstate, hnone⟩ := hrow (htime.trans_lt hlate) rec (by rw [hids]; exact hrec)
    obtain ⟨hto, hjws⟩ := hheld hwon ends hends hlate hnone hstate
    rw [assign_jws hjws]
    exact ⟨hto, hnone⟩
  case signed =>
    intro state hstate
    obtain ⟨hseen, hsome⟩ := hsigned state hstate
    refine ⟨hseen, ?_⟩
    rw [World.jwsOn, hids, hrec, Option.bind_some] at hsome
    rw [World.jwsOn, hids, hrow, Option.bind_some]
    cases hpatch : patch.jws with
    | none =>
      rw [assign_jws hpatch]
      exact hsome
    | some jws =>
      rw [hturn.unsigned (by rw [hpatch]; rfl)] at hsome
      cases hsome

/-- The other runs keep what they rely on. -/
theorem stands_turn_other (hinv : Leases ids s) (htime : s.2.latest ≤ e.time)
    (htarget : target? s.1 e (ids n) allowed patch = some rec)
      (hturn : Turn k₀ allowed e.time (s.2.lease n) rec target patch)
    (hne : m ≠ n) (hk : Stands ids m k s) :
    Stands ids m k (watched s n (.casLate (ids n) allowed target patch) e).1 := by
  have hrec : rec ∈ s.1.late.lookup (ids n) := (mem_target htarget).1
  obtain ⟨hrow, hrows, hlatest, hclock, hlease⟩ := watched_cas target htarget
  have hsame : (watched s n (.casLate (ids n) allowed target patch) e).1.2.lease m = s.2.lease m := by
    rw [hlease, Function.update_of_ne hne]
  cases k with
  | idle => exact hsame.trans hk
  | timed => exact ⟨hclock ▸ hk.1, hsame.trans hk.2⟩
  | looked won signed =>
    by_cases hids : ids m = ids n
    · refine looked_turn hinv htime htarget hturn hids hk hsame ?_
      intro _ ends hends hlive hnone _
      obtain ⟨hsigned, -⟩ := hturn.beside hinv htime hrec hne hids hends hlive
      rw [hnone] at hsigned
      cases hsigned
    · obtain ⟨htimed, hearly, hfree, hlive, hsigned⟩ := hk
      have hrow' := hrows _ hids
      generalize (watched s n (.casLate (ids n) allowed target patch) e).1 = s' at *
      refine ⟨hclock ▸ htimed, ?_, fun hw hs => hsame.trans (hfree hw hs), ?_, ?_⟩
      · rw [hclock, hrow']
        exact hearly
      · rw [hsame, hrow', hlatest]
        intro hwon
        obtain ⟨ends, hends, hrow⟩ := hlive hwon
        exact ⟨ends, hends, fun hlate => hrow (htime.trans_lt hlate)⟩
      · unfold World.jwsOn
        rw [hrow']
        exact hsigned
  | finished => trivial
  | gone =>
    by_cases hids : ids m = ids n
    · rw [show s.1.late.lookup (ids n) = none from hids ▸ hk] at hrec
      cases hrec
    · exact (hrows _ hids).trans hk

/-- And the run of the turn relies on what it was answered, or is over. -/
theorem stands_turn_own (hinv : Leases ids s) (htime : s.2.latest ≤ e.time)
    (htarget : target? s.1 e (ids n) allowed patch = some rec)
      (hturn : Turn k₀ allowed e.time (s.2.lease n) rec target patch)
    (hwrite : Write k allowed target patch) (hk : Stands ids n k s) {r : Option (Option LateRow)} (hr : r ≠ some none) :
    Stands ids n (k.write allowed target patch r) (watched s n (.casLate (ids n) allowed target patch) e).1 := by
  have hrec : rec ∈ s.1.late.lookup (ids n) := (mem_target htarget).1
  obtain ⟨hrow, -, hlatest, hclock, hlease⟩ := watched_cas target htarget
  have hself : (watched s n (.casLate (ids n) allowed target patch) e).1.2.lease n
    = leaseAfter patch (s.2.lease n) := by
    rw [hlease, Function.update_self]
  have hkeep : ∀ {won signed}, Looked ids n won signed s → leaseAfter patch (s.2.lease n) = s.2.lease n →
      (won = true → ∀ ends ∈ s.2.lease n, e.time < ends → rec.jws = none → rec.state = .issuing →
        target = .issuing ∧ patch.jws = none) →
      Looked ids n won signed (watched s n (.casLate (ids n) allowed target patch) e).1 :=
    fun hk hafter hheld => looked_turn hinv htime htarget hturn rfl hk (hself.trans hafter) hheld
  have hunseen : ∀ {won state}, Looked ids n won (some state) s → rec.jws.isSome := by
    intro won state hk
    have hsome := (hk.signed state rfl).2
    rw [World.jwsOn, hrec] at hsome
    exact hsome
  -- by the kind of write, and by what the run knew
  cases hwrite with
  | move hopen hjws hkeeps =>
    have hne : allowed ≠ [.issuing] := by
      rintro rfl
      exact hopen.1 (List.mem_singleton_self _)
    rw [write_same (by rw [hkeeps.1]; rfl) (Or.inl hne)]
    cases k with
    | idle => exact (hself.trans (keeps_leaseAfter hkeeps)).trans hk
    | timed => exact ⟨hclock ▸ hk.1, (hself.trans (keeps_leaseAfter hkeeps)).trans hk.2⟩
    | looked won signed =>
      refine hkeep hk (keeps_leaseAfter hkeeps) ?_
      intro _ _ _ _ _ hstate
      exact (hopen.1 (hstate ▸ (mem_target htarget).2.1)).elim
    | finished => trivial
    | gone =>
      rw [show s.1.late.lookup (ids n) = none from hk] at hrec
      cases hrec
  | win hjws howner hends =>
    rename_i signed owner ends
    unfold Stand.write
    rw [howner]
    cases r with
    | none => trivial
    | some answer =>
      cases answer with
      | none => exact (hr rfl).elim
      | some written =>
        have hafter : leaseAfter patch (s.2.lease n) = some ends := by
          rw [leaseAfter, howner, hends]
          rfl
        have hnone : rec.jws = none := by
          by_contra hsigned
          rcases hinv.signed n rec hrec (Option.isSome_iff_ne_none.2 hsigned) with h | h
          · rw [List.mem_singleton.1 (mem_target htarget).2.1] at h
            cases h
          · rw [List.mem_singleton.1 (mem_target htarget).2.1] at h
            cases h
        cases signed with
        | some state =>
          have hsigned := hunseen hk
          rw [hnone] at hsigned
          cases hsigned
        | none =>
          have hrest : ∀ row ∈ (watched s n (.casLate (ids n) [.confirmed] .issuing patch) e).1.1.late.lookup (ids n),
              row.state = .issuing ∧ row.jws = none := by
            rw [hrow]
            rintro row ⟨⟩
            exact ⟨rfl, (assign_jws hjws).trans hnone⟩
          constructor
          case timed => exact hclock ▸ hk.timed
          case early => exact fun _ _ _ row hmem _ => (hrest row hmem).2
          case free => exact fun h => absurd h.symm Bool.false_ne_true
          case held => exact fun _ => ⟨ends, hself.trans hafter, fun _ => hrest⟩
          case signed => exact fun _ h => (Option.not_mem_none _ h).elim
  | takeBack hjws howner =>
    rw [write_same (by rw [howner]; rfl) (Or.inr (Or.inr ⟨none, rfl⟩))]
    refine hkeep hk ?_ fun h => absurd h Bool.false_ne_true
    rw [leaseAfter, howner, hk.free rfl rfl]
    rfl
  | hold hto hjws hkeeps =>
    rename_i signed
    unfold Stand.write
    dsimp only
    rw [if_neg (by decide)]
    cases r with
    | none => trivial
    | some answer =>
      cases answer with
      | none => exact (hr rfl).elim
      | some written =>
        dsimp only
        split_ifs with hissuing hsigns
        · refine ⟨hclock ▸ hk.timed, ?_, fun _ h => (Option.some_ne_none _ h).elim,
            fun h => absurd h Bool.false_ne_true, ?_⟩
          · rintro (h | h)
            · cases h
            · cases h
          · rintro state ⟨⟩
            refine ⟨Or.inl rfl, ?_⟩
            rw [World.jwsOn, hrow, Option.bind_some]
            show (patch.jws.getD rec.jws).isSome
            cases hpatch : patch.jws with
            | none =>
              rw [hpatch] at hsigns
              cases hsigns
            | some jws =>
              cases jws with
              | none => exact (hjws hpatch).elim
              | some jws => rfl
        · refine hkeep hk (keeps_leaseAfter hkeeps) fun _ _ _ _ _ _ => ⟨hissuing, by simpa using hsigns⟩
        · trivial
  | giveBack hjws howner =>
    unfold Stand.write
    dsimp only
    rw [if_neg (by decide)]
    cases r with
    | none => trivial
    | some answer =>
      cases answer with
      | none => exact (hr rfl).elim
      | some written => trivial
  | publish hjws hkeeps | issue hjws hkeeps =>
    rw [write_same (by rw [hkeeps.1]; rfl) (Or.inl (by decide))]
    refine hkeep hk (keeps_leaseAfter hkeeps) ?_
    intro _ _ _ _ hnone _
    have hsigned := hunseen hk
    rw [hnone] at hsigned
    cases hsigned
  | gone =>
    rw [show s.1.late.lookup (ids n) = none from hk] at hrec
    cases hrec

/-! ## Every operation -/

/-- What a run reads on its row. -/
theorem stands_read (hinv : Leases ids s) (hk : Stands ids n k s) (hlooks : k.Looks) :
    Stands ids n (k.read (s.1.late.lookup (ids n))) s := by
  cases hrow : s.1.late.lookup (ids n) with
  | none => exact hrow
  | some row =>
    have hsight : ∀ (won : Bool) (signed : Option LateState),
      (∀ {seen : Option LateState}, (seen = none → row.jws = none) →
        (seen.isSome → seen = some row.state ∧ row.jws.isSome) → (signed.isSome → seen.isSome) →
          Looked ids n won seen s) → (signed.isSome → row.jws.isSome) → Stands ids n (sight won signed row) s := by
      intro won signed hlooked hkept
      unfold sight
      by_cases hjws : row.jws.isSome
      · rw [if_pos hjws, if_pos (hinv.signed n row hrow hjws)]
        exact hlooked (fun h => (Option.some_ne_none _ h).elim) (fun _ => ⟨rfl, hjws⟩) fun _ => rfl
      · have hunseen : ¬ signed.isSome := fun h => hjws (hkept h)
        rw [if_neg hjws, if_neg hunseen]
        exact hlooked (fun _ => by simpa using hjws) (fun h => absurd h Bool.false_ne_true) fun h => (hunseen h).elim
    have hstate : ∀ {seen : Option LateState}, (seen.isSome → seen = some row.state ∧ row.jws.isSome) →
        ∀ state ∈ seen, (state = .issuing ∨ state = .issued) ∧ (s.1.jwsOn (ids n)).isSome := by
      rintro seen hseen state hmem
      obtain ⟨hsame, hjws⟩ := hseen (by rw [hmem]; rfl)
      rw [hsame] at hmem
      cases hmem
      refine ⟨hinv.signed n row hrow hjws, ?_⟩
      rw [World.jwsOn, hrow]
      exact hjws
    have hfresh : ∀ {seen : Option LateState} {won}, (seen = none → row.jws = none) → won = true ∨ seen = none →
        won = false → ∀ now ∈ s.2.clock n, ∀ row ∈ s.1.late.lookup (ids n), row.lease_until ≤ now → row.jws = none := by
      rintro seen won hnone hor hwon now - row' hrow' -
      rw [hrow] at hrow'
      cases hrow'
      rcases hor with h | h
      · rw [hwon] at h
        cases h
      · exact hnone h
    cases k with
    | idle => exact (hlooks.1 rfl).elim
    | finished => exact (hlooks.2 rfl).elim
    | gone => exact hk
    | timed =>
      refine hsight false none ?_ fun h => absurd h Bool.false_ne_true
      intro seen hnone hseen _
      exact ⟨hk.1, fun hor => hfresh hnone hor rfl, fun _ _ => hk.2, fun h => absurd h Bool.false_ne_true, hstate hseen⟩
    | looked won signed =>
      refine hsight won signed ?_ ?_
      · intro seen hnone hseen hless
        refine ⟨hk.timed, fun hor => ?_, fun hwon hunseen => hk.free hwon ?_, hk.held, hstate hseen⟩
        · cases won with
          | false => exact hfresh hnone hor rfl
          | true => exact hk.early (Or.inl rfl)
        · cases signed with
          | none => rfl
          | some state =>
            have hsome := hless rfl
            rw [hunseen] at hsome
            cases hsome
      · intro hsigned
        obtain ⟨state, rfl⟩ := Option.isSome_iff_exists.1 hsigned
        obtain ⟨-, hjws⟩ := hk.signed state rfl
        rw [World.jwsOn, hrow] at hjws
        exact hjws

/-- A compare-and-set that changes nothing leaves its run where it stands, or ends it. -/
theorem write_missed {r : Option (Option LateRow)} (hr : r = none ∨ r = some none) :
    k.write allowed target patch r = k ∨ k.write allowed target patch r = .finished := by
  cases k with
  | looked won signed =>
    rcases hr with rfl | rfl
    · cases won with
      | false =>
        by_cases howner : patch.lease_owner.join.isNone
        · exact Or.inl (if_pos howner)
        · exact Or.inr (if_neg howner)
      | true =>
        by_cases hallowed : allowed ≠ [.issuing]
        · exact Or.inl (if_pos hallowed)
        · exact Or.inr (if_neg hallowed)
    · cases won with
      | false => exact Or.inl (ite_self _)
      | true => exact Or.inl (ite_self _)
  | _ => exact Or.inl rfl

/-- What a compare-and-set that takes no effect answers. -/
theorem answer_unmoved {id : String} (h : Unmoved s (.casLate id allowed target patch) e) :
    (exec s.1 n (.casLate id allowed target patch) e).2 = none
      ∨ (exec s.1 n (.casLate id allowed target patch) e).2 = some none := by
  rcases exec_cases s.1 n (.casLate id allowed target patch) e with ⟨hexec, hfails⟩ | ⟨hexec, -⟩ | ⟨hexec, -⟩
  · have hnone : casRow s.1.late id allowed patch = none := by
      unfold Unmoved target? at h
      dsimp only at h
      rw [hfails, if_neg nofun] at h
      exact h
    rw [hexec, (effect_cas ..).2.2, hnone]
    exact Or.inr rfl
  · rw [hexec]
    exact Or.inl rfl
  · rw [hexec]
    exact Or.inl rfl

/-- What an operation that moves no row tells its run. -/
theorem stands_next (hinv : Leases ids s) (hunmoved : Unmoved s o e) (htime : s.2.latest ≤ e.time)
    (hproper : Proper (ids n) k o) (hk : Stands ids n k s) :
    Stands ids n (next k o (exec s.1 n o e).2) (watched s n o e).1 := by
  have hstays : Stands ids n k (watched s n o e).1 := stands_unmoved hunmoved htime hk
  cases o with
  | now =>
    cases k with
    | idle =>
      refine ⟨?_, hstays⟩
      dsimp only [watched, Watch.next]
      rw [Function.update_self]
      cases s.2.clock n <;> rfl
    | _ => exact hstays
  | getLate id =>
    obtain ⟨rfl, hlooks⟩ := hproper
    rcases exec_cases s.1 n (.getLate (ids n)) e with ⟨hexec, -⟩ | ⟨hexec, -⟩ | ⟨hexec, -⟩
    · rw [hexec]
      exact stands_unmoved hunmoved htime (stands_read hinv hk hlooks)
    · rw [hexec]
      exact hstays
    · rw [hexec]
      exact hstays
  | casLate id allowed target patch =>
    show Stands ids n (k.write allowed target patch _) _
    rcases write_missed (answer_unmoved hunmoved) with h | h
    · rw [h]
      exact hstays
    · rw [h]
      trivial
  | _ => exact hstays

/-- An operation moves no row of the pool, or is a turn on the run's own. -/
theorem turn_cases (hinv : Leases ids s) (hk : Stands ids n k s) (hproper : Proper (ids n) k o)
    (hbylease : ByLease s n o e) : Unmoved s o e ∨ ∃ allowed target patch rec, o = .casLate (ids n) allowed target patch
      ∧ Write k allowed target patch ∧ target? s.1 e (ids n) allowed patch = some rec
      ∧ Turn k allowed e.time (s.2.lease n) rec target patch := by
  cases o with
  | casLate id allowed target patch =>
    obtain ⟨rfl, hwrite⟩ := hproper
    cases htarget : target? s.1 e (ids n) allowed patch with
    | none => exact Or.inl htarget
    | some rec =>
      exact Or.inr ⟨allowed, target, patch, rec, rfl, hwrite, htarget, turn_of_write hinv hk hwrite hbylease htarget⟩
  | _ => exact Or.inl trivial

/-- **STEP**: an operation by lease keeps the invariant and what its run relies on. -/
theorem leases_watched (hinv : Leases ids s) (hk : Stands ids n k s) (hproper : Proper (ids n) k o)
    (hbylease : ByLease s n o e) :
    Leases ids (watched s n o e).1 ∧ Stands ids n (next k o (watched s n o e).2) (watched s n o e).1 := by
  have htime : s.2.latest ≤ e.time := hbylease.1
  rcases turn_cases hinv hk hproper hbylease with hunmoved | ⟨allowed, target, patch, rec, rfl, hwrite, htarget, hturn⟩
  · exact ⟨leases_unmoved hunmoved htime hinv, stands_next hinv hunmoved htime hproper hk⟩
  · refine ⟨leases_turn hinv htime htarget hturn, ?_⟩
    refine stands_turn_own hinv htime htarget hturn hwrite hk ?_
    show (exec s.1 n (.casLate (ids n) allowed target patch) e).2 ≠ some none
    rcases exec_cases s.1 n (.casLate (ids n) allowed target patch) e with ⟨hexec, -⟩ | ⟨hexec, -⟩ | ⟨hexec, -⟩
    · rw [hexec, (effect_cas ..).2.2, (mem_target htarget).2.2.2]
      nofun
    · rw [hexec]
      nofun
    · rw [hexec]
      nofun

theorem stands_watched (hinv : Leases ids s) (hk : Stands ids n k s) (hproper : Proper (ids n) k o)
    (hbylease : ByLease s n o e) (hne : m ≠ n) (hk' : Stands ids m k' s) : Stands ids m k' (watched s n o e).1 := by
  have htime : s.2.latest ≤ e.time := hbylease.1
  rcases turn_cases hinv hk hproper hbylease with hunmoved | ⟨allowed, target, patch, rec, rfl, -, htarget, hturn⟩
  · exact stands_unmoved hunmoved htime hk'
  · exact stands_turn_other hinv htime htarget hturn hne hk'

/-! ## Every schedule -/

/-- A pool of runs, each on a row of its own, with leases watched from a time on. -/
def watchedRuns (rules : Rules) (ids : ℕ → String) (deps : ℕ → Deps) (fuel : ℕ → ℕ) (record : ℕ → LateRow) (w : World)
    (since : ℤ) : Config Op Res LateAnswer (World × Watch) where
  state := (w, Watch.start since)
  pool n := resolveLateRecord rules (deps n) (fuel n) (ids n) (record n)

variable {rules : Rules} {deps : ℕ → Deps} {fuel : ℕ → ℕ} {record : ℕ → LateRow} {w : World} {since : ℤ}

theorem leases_start (hsigned : ∀ n, ∀ row ∈ w.late.lookup (ids n), row.jws.isSome →
    row.state = .issuing ∨ row.state = .issued) :
    Leases ids (w, Watch.start since) := by
  refine ⟨hsigned, ?_, ?_, ?_⟩
  · rintro n now ⟨⟩
  · rintro n ends ⟨⟩
  · rintro n m - - ends ⟨⟩

theorem judged_watchedRuns
    (hsigned : ∀ n, ∀ row ∈ w.late.lookup (ids n), row.jws.isSome → row.state = .issuing ∨ row.state = .issued) :
    Judged (fun n => Proper (ids n)) (fun _ => next) (fun _ _ _ => True) (Leases ids) (Stands ids)
      (watchedRuns rules ids deps fuel record w since) :=
  ⟨leases_start hsigned, fun _ => ⟨.idle, rfl, leased_resolveLateRecord _⟩⟩

/-- Under leases, a signature is written or cleared on an unsigned row only. -/
theorem findsUnsigned_of_byLease {id : String} (hinv : Leases (fun _ => id) s) (hk : Stands (fun _ => id) n k s)
    (hproper : Proper id k o) (hbylease : ByLease s n o e) : FindsUnsigned id s.1 n o e := by
  cases o with
  | casLate id' allowed target patch =>
    rintro rfl hjws hfails row hcas
    have htarget : target? s.1 e id' allowed patch = some row := (if_neg hfails).trans hcas
    exact (turn_of_write hinv hk hproper.2 hbylease htarget).unsigned hjws
  | _ => trivial

/-- **SIGNED ONCE**: under every schedule, with any owners, answers, failures and
    crashes, as long as the runs keep to the leases. -/
theorem signsOnce_of_byLease (rules : Rules) (id : String) (deps : ℕ → Deps) (fuel : ℕ → ℕ) (record : ℕ → LateRow)
    {w : World} (hw : Unsigned id w) (since : ℤ) {events : List (ℕ × Event)}
    (hmeets : MeetsRun watched ByLease (watchedRuns rules (fun _ => id) deps fuel record w since) events) :
    ∀ before after, events = before ++ after →
      SignsOnce rules id (run (step exec) (runs rules id deps fuel record w) before) := by
  have hsigned : ∀ n : ℕ, ∀ row ∈ w.late.lookup ((fun _ => id) n), row.jws.isSome →
      row.state = .issuing ∨ row.state = .issued := by
    intro n row hrow hjws
    obtain ⟨row', hrow', hnone, -⟩ := hw.row
    rw [hrow'] at hrow
    cases hrow
    rw [hnone] at hjws
    cases hjws
  refine signsOnce_of_findsUnsigned rules id deps fuel record hw ?_
  refine MeetsRun.lockstep (R := fun s w => s.1 = w) ?_ ?_ (fun _ _ _ _ _ => leases_watched) ?_ rfl
    (judged_watchedRuns hsigned) hmeets
  · rintro s w n o e rfl
    exact ⟨rfl, rfl⟩
  · rintro s w n o e k rfl hinv hk hproper hbylease
    exact findsUnsigned_of_byLease hinv hk hproper hbylease
  · exact fun s n m o e k k' hinv hk hproper hbylease hne hk' => stands_watched hinv hk hproper hbylease hne hk'

/-! ## A row that changes hands -/

/-- The runs of two processes. -/
def takeoverDeps (n : ℕ) : Deps := { sampleDeps with pid := if n = 0 then "1" else "2" }

/-- The first run waits for its signer. More than three minutes later the second takes the row back, wins it,
    signs it and publishes it; then the first signer answers, and its run stops. -/
def takeoverEvents : List (ℕ × Event) :=
  List.replicate 14 (0, sampleEvent firstJws) ++ List.replicate 28 (1, { sampleEvent secondJws with time := 1200000 })
    ++ [(0, { sampleEvent firstJws with time := 1200000 })]

theorem signsOnce_of_byLease_sample : SignsOnce sampleRules "r" (run (step exec)
    (runs sampleRules "r" takeoverDeps (fun _ => 2) (fun _ => sampleRow) sampleWorld) takeoverEvents) :=
  signsOnce_of_byLease sampleRules "r" _ _ _ sampleWorld_unsigned 0 (by decide +kernel) _ [] (List.append_nil _).symm

end LateTurn
