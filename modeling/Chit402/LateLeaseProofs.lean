import Chit402.LateStoreProofs
import Chit402.LateIssueProofs

/-! # The lease of a late row

    A run that wins a row takes a lease of a minute with it.  The entry of a
    run reads the lease, but no compare-and-set does, so it is the times of
    the runs that keep them apart: what a run does under its lease has to
    fall before its end, and a row has to be taken back after it.  What a run
    can rely on is read off the run alone: whether it has won the row, and in
    which state it has seen the row signed. -/

namespace LateLease

open Interleaving LateStore LateIssue

/-! ## Leases and clocks -/

/-- What is watched beside the store: the time of the last operation, the clock each run read first, the end
    of the lease it holds, how often each row was issued, and how often when a run last read its row. -/
structure Watch where
  latest : ℤ
  clock : ℕ → Option ℤ
  lease : ℕ → Option ℤ
  issues : String → ℕ
  seen : ℕ → ℕ

/-- Nothing read, nothing won. -/
def Watch.start (since : ℤ) : Watch := ⟨since, fun _ => none, fun _ => none, fun _ => 0, fun _ => 0⟩

/-- The row a compare-and-set takes effect on. -/
def target? (w : World) (e : Event) (id : String) (allowed : List LateState) (patch : LatePatch) : Option LateRow :=
  if e.fails = some false then none else casRow w.late id allowed patch

/-- The lease a write leaves its run with: the one it takes, and none when it clears the owner. -/
def leaseAfter (patch : LatePatch) (held : Option ℤ) : Option ℤ :=
  match patch.lease_owner with
  | some owner => owner.bind fun _ => patch.lease_until
  | none => held

def Watch.next (g : Watch) (w : World) (n : ℕ) (o : Op) (e : Event) : Watch where
  latest := e.time
  clock := match o with
    | .now => Function.update g.clock n ((g.clock n).or (some e.time))
    | _ => g.clock
  lease := match o with
    | .casLate id allowed _ patch =>
      if (target? w e id allowed patch).isSome then Function.update g.lease n
        (leaseAfter patch (g.lease n)) else g.lease
    | _ => g.lease
  issues := match o with
    | .casLate id allowed target patch =>
      if (target? w e id allowed patch).isSome ∧ target = .issued ∧ .issued ∉ allowed then
        Function.update g.issues id (g.issues id + 1)
      else g.issues
    | _ => g.issues
  seen := match o with
    | .getLate id => if e.fails = none then Function.update g.seen n (g.issues id) else g.seen
    | _ => g.seen

/-- The operations, with the leases watched. -/
def watched (s : World × Watch) (n : ℕ) (o : Op) (e : Event) : (World × Watch) × Option (Res o) :=
  (((exec s.1 n o e).1, s.2.next s.1 n o e), (exec s.1 n o e).2)

/-- **The condition on one operation.** Time does not go back. A compare-and-set on `issuing` by a run that
    holds a lease falls before its end; by any other run, it finds a row whose lease has ended by that run's clock. -/
def ByLease (s : World × Watch) (n : ℕ) (o : Op) (e : Event) : Prop :=
  s.2.latest ≤ e.time ∧ match o with
  | .casLate id allowed _ patch => allowed = [.issuing] → ∀ row ∈ target? s.1 e id allowed patch,
      (∀ ends ∈ s.2.lease n, e.time < ends) ∧ (s.2.lease n = none → ∀ now ∈ s.2.clock n, row.lease_until ≤ now)
  | _ => True

instance decidableByLease (s : World × Watch) (n : ℕ) (o : Op) (e : Event) : Decidable (ByLease s n o e) :=
  match o with
  | .casLate id allowed _ patch => inferInstanceAs (Decidable (s.2.latest ≤ e.time ∧ (allowed = [.issuing] →
      ∀ row ∈ target? s.1 e id allowed patch, (∀ ends ∈ s.2.lease n, e.time < ends)
        ∧ (s.2.lease n = none → ∀ now ∈ s.2.clock n, row.lease_until ≤ now))))
  | .getLate _ | .appendLateLedger _ | .isTxSpent _ | .reserveTx .. | .releaseTx .. | .markTxSpent ..
  | .markAuthSpent .. | .markSpent .. | .now | .readChain _ | .reorgGuard .. | .signer ..
  | .recordLedger _ | .appendLog .. => inferInstanceAs (Decidable (s.2.latest ≤ e.time ∧ True))

/-! ## Where a run stands -/

/-- Where a run stands with its row. A run that has looked may have won the row, and may have seen it signed. -/
inductive Stand
  | idle
  | timed
  | looked (won : Bool) (signed : Option LateState)
  | finished
  /-- The row is not there. Also what follows from answers that no store gives. -/
  | gone

/-- A look at the row by a run that has seen it as `signed`. -/
def sight (won : Bool) (signed : Option LateState) (row : LateRow) : Stand :=
  if row.jws.isSome then
    if row.state = .issuing ∨ row.state = .issued then .looked won (some row.state) else .gone
  else if signed.isSome then .gone else .looked won none

def Stand.read (k : Stand) : Option LateRow → Stand
  | none => .gone
  | some row => match k with
    | .looked won signed => sight won signed row
    | .gone => .gone
    | _ => sight false none row

/-- The answer to a compare-and-set. One that throws may have taken effect. -/
def Stand.write (k : Stand) (allowed : List LateState) (target : LateState) (patch : LatePatch)
    (r : Option (Option LateRow)) : Stand :=
  match k with
  | .looked false signed =>
    if patch.lease_owner.join.isNone then .looked false signed
    else match r with
      | some none => .looked false signed
      | some (some _) => if signed.isSome then .gone else .looked true none
      | none => .finished
  | .looked true signed =>
    if allowed ≠ [.issuing] then .looked true signed
    else match r with
      | some none => .looked true signed
      | some (some _) =>
        if target = .issuing then (if patch.jws.isSome then .looked false (some .issuing)
          else .looked true signed) else .finished
      | none => .finished
  | k => k

def next (k : Stand) (o : Op) (r : Option (Res o)) : Stand :=
  match o, r with
  | .now, _ => match k with
    | .idle => .timed
    | k => k
  | .getLate _, some row => k.read row
  | .casLate _ allowed target patch, r => k.write allowed target patch r
  | _, _ => k

/-- A patch that leaves the lease. -/
def KeepsLease (patch : LatePatch) : Prop := patch.lease_owner = none ∧ patch.lease_until = none

/-- The compare-and-sets of a run, by what they rest on. -/
inductive Write : Stand → List LateState → LateState → LatePatch → Prop
  | move {k allowed target patch} (hopen : LateState.issuing ∉ allowed ∧ LateState.issued ∉ allowed)
      (hjws : patch.jws = none) (hlease : KeepsLease patch) : Write k allowed target patch
  | win {signed patch} {owner : String} {ends : ℤ} (hjws : patch.jws = none)
      (howner : patch.lease_owner = some (some owner)) (hends : patch.lease_until = some ends) :
      Write (.looked false signed) [.confirmed] .issuing patch
  | takeBack {patch} (hjws : patch.jws = some none) (howner : patch.lease_owner = some none) :
      Write (.looked false none) [.issuing] .confirmed patch
  | hold {signed target patch} (htarget : target = .issuing ∨ (target = .issued ∧ patch.jws = none))
      (hjws : patch.jws ≠ some none) (hlease : KeepsLease patch) : Write (.looked true signed) [.issuing] target patch
  | giveBack {signed patch} (hjws : patch.jws.join = none) (howner : patch.lease_owner = some none) :
      Write (.looked true signed) [.issuing] .confirmed patch
  | publish {won state patch} (hjws : patch.jws = none) (hlease : KeepsLease patch) :
      Write (.looked won (some state)) [.issuing, .confirmed, .issued] state patch
  | issue {won state patch} (hjws : patch.jws = none) (hlease : KeepsLease patch) :
      Write (.looked won (some state)) [.issuing, .confirmed] .issued patch
  | gone {allowed target patch} : Write .gone allowed target patch

/-- What a run does from where it stands. Only a run that has won the row asks the signer. -/
def Proper (id : String) (k : Stand) : Op → Prop
  | .getLate id' => id' = id ∧ k ≠ .idle ∧ k ≠ .finished
  | .casLate id' allowed target patch => id' = id ∧ Write k allowed target patch
  | .signer .. => k = .gone ∨ ∃ signed, k = .looked true signed
  | _ => True

variable {α β : Type} {id : String} {k : Stand} {won : Bool} {signed : Option LateState} {state target : LateState}
  {allowed : List LateState} {patch : LatePatch}

abbrev Leased (id : String) (k : Stand) (p : Prog α) : Prop := Judge (Proper id) next (fun _ _ => True) k p

/-- A piece of a program that leaves the run where it stands. -/
abbrev Still (id : String) (k : Stand) (p : Prog α) : Prop := Judge (Proper id) next (fun k' _ => k' = k) k p

/-! ## Rules -/

variable {p : Prog α} {o : Op} {row : LateRow}

theorem leased_pure (a : α) : Leased id k (pure a) := trivial

theorem leased_next {f : Res o → Prog β} (ho : Proper id k o) (h : ∀ r, Leased id (next k o (some r)) (f r)) :
    Leased id k (Prog.call o >>= f) :=
  judge_call_bind ho h trivial

theorem still_pure (a : α) : Still id k (pure a) := rfl

theorem still_bind {f : α → Prog β} (hp : Still id k p) (h : ∀ a, Still id k (f a)) : Still id k (p >>= f) := by
  refine judge_bind (Judge.mono ?_ hp)
  rintro k' r rfl
  cases r with
  | some a => exact h a
  | none => rfl

theorem leased_then {f : α → Prog β} (hp : Still id k p) (h : ∀ a, Leased id k (f a)) : Leased id k (p >>= f) := by
  refine judge_bind (Judge.mono ?_ hp)
  rintro k' r rfl
  cases r with
  | some a => exact h a
  | none => trivial

theorem still_call (ho : Proper id k o) (h : ∀ r, next k o r = k) : Still id k (call o) :=
  judge_call ho (fun _ => h _) (h _)

theorem still_orElse {handler : Prog α} (hp : Still id k p) (h : Still id k handler) :
    Still id k (p.orElse handler) := by
  refine judge_orElse (Judge.mono ?_ hp)
  rintro k' r rfl
  cases r with
  | some a => rfl
  | none => exact h

theorem still_attempt {p : Prog Unit} (hp : Still id k p) : Still id k (attempt p) :=
  still_orElse (still_bind hp fun _ => still_pure true) (still_pure false)

theorem still_whenText (text : Option String) {f : String → Prog Unit} (h : ∀ text, Still id k (f text)) :
    Still id k (whenText text f) := by
  unfold whenText
  split
  · exact h _
  · exact still_pure ()

/-- The run can look at its row. -/
def Stand.Looks (k : Stand) : Prop := k ≠ .idle ∧ k ≠ .finished

/-- A run that does not hold the row. -/
def Stand.Open (k : Stand) : Prop := k = .gone ∨ ∃ signed, k = .looked false signed

/-- A run that has won the row. -/
def Stand.Held (k : Stand) : Prop := k = .gone ∨ ∃ signed, k = .looked true signed

theorem Stand.Open.looks (h : k.Open) : k.Looks := by
  rcases h with rfl | ⟨signed, rfl⟩
  · exact ⟨nofun, nofun⟩
  · exact ⟨nofun, nofun⟩

theorem Stand.Held.looks (h : k.Held) : k.Looks := by
  rcases h with rfl | ⟨signed, rfl⟩
  · exact ⟨nofun, nofun⟩
  · exact ⟨nofun, nofun⟩

/-- What a look shows. -/
theorem sight_cases (won : Bool) (signed : Option LateState) (row : LateRow) : sight won signed row = .gone
      ∨ (sight won signed row = .looked won (some row.state) ∧ row.jws.isSome)
      ∨ (sight won signed row = .looked won none ∧ row.jws = none ∧ signed = none) := by
  unfold sight
  by_cases hjws : row.jws.isSome
  · rw [if_pos hjws]
    split_ifs
    · exact Or.inr (Or.inl ⟨rfl, hjws⟩)
    · exact Or.inl rfl
  · rw [if_neg hjws]
    cases signed with
    | some state => exact Or.inl rfl
    | none => exact Or.inr (Or.inr ⟨rfl, by simpa using hjws, rfl⟩)

theorem sight_open (signed : Option LateState) (row : LateRow) : (sight false signed row).Open := by
  rcases sight_cases false signed row with h | ⟨h, -⟩ | ⟨h, -⟩
  · exact Or.inl h
  · exact Or.inr ⟨_, h⟩
  · exact Or.inr ⟨_, h⟩

theorem Stand.Open.read (h : k.Open) (row : Option LateRow) : (k.read row).Open := by
  cases row with
  | none => exact Or.inl rfl
  | some row =>
    rcases h with rfl | ⟨signed, rfl⟩
    · exact Or.inl rfl
    · exact sight_open signed row

theorem Stand.Held.read (h : k.Held) (row : Option LateRow) : (k.read row).Held := by
  cases row with
  | none => exact Or.inl rfl
  | some row =>
    rcases h with rfl | ⟨signed, rfl⟩
    · exact Or.inl rfl
    · rcases sight_cases true signed row with h | ⟨h, -⟩ | ⟨h, -⟩
      · exact Or.inl h
      · exact Or.inr ⟨_, h⟩
      · exact Or.inr ⟨_, h⟩

theorem Stand.Looks.read (h : k.Looks) (row : Option LateRow) : (k.read row).Looks := by
  cases row with
  | none => exact ⟨nofun, nofun⟩
  | some row =>
    cases k with
    | idle => exact (h.1 rfl).elim
    | finished => exact (h.2 rfl).elim
    | timed => exact (sight_open none row).looks
    | gone => exact ⟨nofun, nofun⟩
    | looked won signed =>
      cases won with
      | false => exact (sight_open signed row).looks
      | true => exact (Stand.Held.read (Or.inr ⟨signed, rfl⟩) (some row)).looks

theorem leased_present {f : LateRow → Prog β} (hk : k.Looks) (h : ∀ row, Leased id (k.read (some row)) (f row)) :
    Leased id k (Prog.call (.getLate id) >>= fun row => present row >>= f) := by
  refine leased_next ⟨rfl, hk⟩ fun row => ?_
  cases row with
  | some row => exact h row
  | none => trivial

/-- A write that takes no lease and is not made under one leaves the run where it stands. -/
theorem write_same (howner : patch.lease_owner.join = none) (hallowed : allowed ≠ [.issuing] ∨ k.Open)
    (r : Option (Option LateRow)) : k.write allowed target patch r = k := by
  cases k with
  | looked won signed =>
    cases won with
    | false =>
      unfold Stand.write
      rw [howner]
      rfl
    | true =>
      have hne : allowed ≠ [.issuing] := by
        rcases hallowed with hne | hopen
        · exact hne
        · rcases hopen with h | ⟨_, h⟩
          · cases h
          · cases h
      exact if_pos hne
  | _ => rfl

/-- So does an answered write under the lease that stays in `issuing` and signs nothing. -/
theorem write_hold (hk : k.Held) (hjws : patch.jws = none) (r : Option LateRow) :
    k.write [.issuing] .issuing patch (some r) = k := by
  rcases hk with rfl | ⟨signed, rfl⟩
  · rfl
  · unfold Stand.write
    rw [hjws]
    cases r with
    | none => rfl
    | some row => rfl

/-! ## The programs -/

theorem still_appendLeaf (record : LateRow) (digest : String) : Still id k (appendLeaf record digest) := by
  unfold appendLeaf
  split_ifs
  · exact still_pure true
  · exact still_call trivial fun _ => rfl

theorem still_markIssued (fresh : LateRow) (chain : Chain) (txRef : Option String) :
    Still id k (markIssued fresh chain txRef) := by
  unfold markIssued
  refine still_bind (still_whenText _ fun _ => still_call trivial fun _ => rfl) fun _ => ?_
  refine still_bind (still_whenText _ fun _ => still_call trivial fun _ => rfl) fun _ => ?_
  exact still_whenText _ fun _ => still_call trivial fun _ => rfl

theorem still_reserveCaught (ref authKey reserveOwner : String) :
    Still id k (reserveCaught ref authKey reserveOwner) := by
  unfold reserveCaught
  refine still_orElse ?_ (still_pure none)
  exact still_bind (still_call trivial fun _ => rfl) fun held => still_pure (some held)

theorem still_releaseUnspent (ref authKey reserveOwner : String) :
    Still id k (releaseUnspent ref authKey reserveOwner) := by
  unfold releaseUnspent
  refine still_bind (still_attempt ?_) fun _ => still_pure ()
  refine still_bind (still_call trivial fun _ => rfl) fun spent => ?_
  split_ifs
  · exact still_pure ()
  · exact still_call trivial fun _ => rfl

variable {rules : Rules} {deps : Deps} {chain : Chain} {fuel : ℕ} {now : ℤ} {fresh : LateRow} {jws : Jws}

/-- A run that publishes has seen the row signed in the state it writes back. -/
def Stand.Publishes (k : Stand) (state : LateState) : Prop := k = .gone ∨ ∃ won, k = .looked won (some state)

theorem Stand.Publishes.write_back (h : k.Publishes state) (hjws : patch.jws = none) (hlease : KeepsLease patch) :
    Write k [.issuing, .confirmed, .issued] state patch := by
  rcases h with rfl | ⟨won, rfl⟩
  · exact Write.gone
  · exact Write.publish hjws hlease

theorem leased_publishLogged (hk : k.Publishes state) :
    Leased id k (publishLogged rules id fresh jws chain) := by
  have hissue : Write k [.issuing, .confirmed] .issued { log_appended := some true, served := some fresh.served } := by
    rcases hk with rfl | ⟨won, rfl⟩
    · exact Write.gone
    · exact Write.issue rfl ⟨rfl, rfl⟩
  unfold publishLogged
  refine leased_then (still_whenText _ fun _ => still_call trivial fun _ => rfl) fun _ => ?_
  refine leased_then (still_appendLeaf ..) fun logged => ?_
  split_ifs
  · refine leased_next ⟨rfl, hissue⟩ fun _ => ?_
    exact leased_then (still_markIssued ..) fun _ => leased_pure _
  · exact leased_pure _

theorem leased_publishSigned (hk : k.Publishes fresh.state) : Leased id k (publishSigned rules id fresh jws chain) := by
  have hallowed : [LateState.issuing, .confirmed, .issued] ≠ [.issuing] := by decide
  have hback : ∀ {patch : LatePatch}, patch.jws = none → KeepsLease patch → Still id k
      (call (.casLate id [.issuing, .confirmed, .issued] fresh.state patch)) := fun hjws hlease =>
    still_call ⟨rfl, hk.write_back hjws hlease⟩ fun r => write_same (by rw [hlease.1]; rfl) (Or.inl hallowed) r
  unfold publishSigned
  refine leased_then (hback rfl ⟨rfl, rfl⟩) fun _ => ?_
  split_ifs
  · exact leased_publishLogged hk
  · refine leased_then (still_attempt ?_) fun recorded => ?_
    · refine still_bind (still_call trivial fun _ => rfl) fun _ => ?_
      exact still_bind (hback rfl ⟨rfl, rfl⟩) fun _ => still_pure ()
    · split_ifs
      · exact leased_publishLogged hk
      · exact leased_pure _

theorem still_sign (current : LateRow) (issuedAt : ℤ) (hk : k.Held) :
    Still id k (sign deps current chain issuedAt) := by
  unfold sign
  refine still_orElse ?_ (still_pure none)
  split_ifs
  · refine still_bind (still_call hk fun _ => rfl) fun signed => ?_
    cases signed with
    | some jws => exact still_pure _
    | none => exact (rfl : Still id k (.thrown : Prog (Option Jws)))
  · exact (rfl : Still id k (.thrown : Prog (Option Jws)))

theorem Stand.Held.give_back (hk : k.Held) (hjws : patch.jws.join = none) (howner : patch.lease_owner = some none) :
    Write k [.issuing] .confirmed patch := by
  rcases hk with rfl | ⟨signed, rfl⟩
  · exact Write.gone
  · exact Write.giveBack hjws howner

theorem Stand.Held.hold (hk : k.Held) (htarget : target = .issuing ∨ (target = .issued ∧ patch.jws = none))
    (hjws : patch.jws ≠ some none) (hlease : KeepsLease patch) : Write k [.issuing] target patch := by
  rcases hk with rfl | ⟨signed, rfl⟩
  · exact Write.gone
  · exact Write.hold htarget hjws hlease

/-- A run that may publish has won the row or seen it signed. -/
def Stand.Ready (k : Stand) : Prop := k.Held ∨ ∃ state, k.Publishes state

theorem Stand.Ready.looks (h : k.Ready) : k.Looks := by
  rcases h with hheld | ⟨state, rfl | ⟨won, rfl⟩⟩
  · exact hheld.looks
  · exact ⟨nofun, nofun⟩
  · exact ⟨nofun, nofun⟩

/-- Such a run that reads a signed row publishes it. -/
theorem Stand.Ready.publishes (h : k.Ready) (hjws : row.jws.isSome) : (k.read (some row)).Publishes row.state := by
  have hsight : ∀ won signed, (sight won signed row).Publishes row.state := by
    intro won signed
    rcases sight_cases won signed row with h | ⟨h, -⟩ | ⟨-, h, -⟩
    · exact Or.inl h
    · exact Or.inr ⟨won, h⟩
    · rw [h] at hjws
      cases hjws
  rcases h with (rfl | ⟨signed, rfl⟩) | ⟨state, rfl | ⟨won, rfl⟩⟩
  · exact Or.inl rfl
  · exact hsight ..
  · exact Or.inl rfl
  · exact hsight ..

/-- And one that reads a row without a signature has won it. -/
theorem Stand.Ready.held (h : k.Ready) (hjws : row.jws = none) : (k.read (some row)).Held := by
  rcases h with hheld | ⟨state, rfl | ⟨won, rfl⟩⟩
  · exact hheld.read _
  · exact Or.inl rfl
  · rcases sight_cases won (some state) row with h | ⟨-, h⟩ | ⟨-, -, h⟩
    · exact Or.inl h
    · rw [hjws] at h
      cases h
    · cases h

/-- Once its signature is on the row, a run has seen the row signed. -/
theorem write_persist (hk : k.Held) (hjws : patch.jws.isSome) (written : LateRow) :
    (next k (.casLate id [.issuing] .issuing patch) (some (some written))).Publishes .issuing := by
  rcases hk with rfl | ⟨signed, rfl⟩
  · exact Or.inl rfl
  · right
    refine ⟨false, ?_⟩
    unfold next Stand.write
    dsimp only
    rw [if_neg (by decide), if_pos rfl, if_pos hjws]

theorem Stand.Ready.read (h : k.Ready) (row : LateRow) : (k.read (some row)).Ready := by
  by_cases hjws : row.jws.isSome
  · exact Or.inr ⟨_, h.publishes hjws⟩
  · exact Or.inl (h.held (by simpa using hjws))

theorem leased_publishIssued (fuel : ℕ) :
    ∀ {k : Stand} {record : LateRow}, k.Ready → Leased id k (publishIssued rules deps id chain fuel record) := by
  induction fuel with
  | zero => exact fun _ => trivial
  | succ fuel ih =>
    intro k record hk
    unfold publishIssued
    refine leased_next ⟨rfl, hk.looks⟩ fun row => ?_
    show Leased id (k.read row) _
    dsimp only
    split
    · rename_i jws hjws
      split_ifs
      · exact leased_pure _
      · refine leased_publishSigned ?_
        cases row with
        | none => exact Or.inl rfl
        | some row => exact hk.publishes (by rw [show row.jws = some jws from hjws]; rfl)
    · rename_i hunsigned
      have hheld : (k.read row).Held := by
        cases row with
        | none => exact Or.inl rfl
        | some row => exact hk.held hunsigned
      generalize k.read row = k₁ at hheld
      have hstart : next k₁ .now = fun _ => k₁ := by
        rcases hheld with rfl | ⟨signed, rfl⟩
        · rfl
        · rfl
      refine leased_next trivial fun now => ?_
      rw [hstart]
      refine leased_next ⟨rfl, hheld.hold (Or.inl rfl) nofun ⟨rfl, rfl⟩⟩ fun r => ?_
      rw [show next k₁ (.casLate id [.issuing] .issuing _) (some r) = k₁ from write_hold hheld rfl r]
      refine leased_present hheld.looks fun current => ?_
      have hcurrent := hheld.read (some current)
      generalize k₁.read (some current) = k₂ at hcurrent
      refine leased_then (still_sign _ _ hcurrent) fun signed => ?_
      split
      · refine leased_next ⟨rfl, hcurrent.give_back rfl rfl⟩ fun _ => ?_
        exact leased_pure _
      · refine leased_next ⟨rfl, hcurrent.hold (Or.inl rfl) nofun ⟨rfl, rfl⟩⟩ fun persisted => ?_
        split
        · exact leased_pure _
        · rename_i hpersisted
          cases persisted with
          | none => cases hpersisted
          | some written =>
            have hready : ∀ {patch : LatePatch}, patch.jws.isSome →
                (next k₂ (.casLate id [.issuing] .issuing patch) (some (some written))).Ready :=
              fun hjws => Or.inr ⟨_, write_persist hcurrent hjws written⟩
            exact leased_present (hready rfl).looks fun row => ih ((hready rfl).read row)

theorem leased_waited (state : Option LateState) (hk : k.Looks) : Leased id k (waited id state) := by
  have hwait : ∀ tries {k : Stand}, k.Looks → Leased id k (waitForJws id tries) := by
    intro tries
    induction tries with
    | zero => exact fun _ => leased_pure none
    | succ tries ih =>
      intro k hk
      unfold waitForJws
      refine leased_next ⟨rfl, hk⟩ fun row => ?_
      split
      · exact leased_pure _
      · exact ih (hk.read row)
  unfold waited
  refine judge_bind (Judge.mono ?_ (hwait 40 hk))
  intro k' r _
  cases r with
  | none => trivial
  | some jws =>
    cases jws with
    | none => exact leased_pure _
    | some jws => exact leased_pure _

theorem leased_publishWon (held : Option (String × String)) (hk : k.Held) :
    Leased id k (publishWon rules deps fuel id row chain held) := by
  have hpublish : Leased id k (do
      let record ← present (← call (.getLate id))
      publishIssued rules { deps with canSign := true } id { chain with tx := txOf row chain } fuel record) :=
    leased_present hk.looks fun record => leased_publishIssued fuel (Or.inl (hk.read _))
  unfold publishWon
  dsimp only
  cases held with
  | none => exact hpublish
  | some held =>
    refine judge_andFinally (Judge.mono ?_ hpublish)
    intro k' r _
    refine Judge.mono ?_ (still_releaseUnspent ..)
    intro k'' r' _
    cases r' with
    | some _ => trivial
    | none => trivial

theorem leased_issueWon (hk : k.Held) : Leased id k (issueWon rules deps fuel id row chain) := by
  unfold issueWon
  refine leased_next ⟨rfl, hk.hold (Or.inl rfl) nofun ⟨rfl, rfl⟩⟩ fun r => ?_
  rw [show next k (.casLate id [.issuing] .issuing _) (some r) = k from write_hold hk rfl r]
  dsimp only
  split
  · exact leased_publishWon none hk
  · refine leased_then (still_reserveCaught ..) fun held => ?_
    split
    · refine leased_next ⟨rfl, hk.give_back rfl rfl⟩ fun _ => ?_
      exact leased_pure _
    · refine leased_next trivial fun spent => ?_
      show Leased id k _
      split_ifs
      · refine leased_next ⟨rfl, hk.hold (Or.inr ⟨rfl, rfl⟩) nofun ⟨rfl, rfl⟩⟩ fun _ => ?_
        exact leased_pure _
      · refine leased_next ⟨rfl, hk.give_back rfl rfl⟩ fun _ => ?_
        exact leased_pure _
    · exact leased_publishWon _ hk

theorem leased_issueConfirmed (hk : k.Open) : Leased id k (issueConfirmed rules deps fuel id row chain now) := by
  have hwin : ∀ {patch : LatePatch} {owner ends}, patch.jws = none → patch.lease_owner = some (some owner) →
      patch.lease_until = some ends → Write k [.confirmed] .issuing patch := by
    intro patch owner ends hjws howner hends
    rcases hk with rfl | ⟨signed, rfl⟩
    · exact Write.gone
    · exact Write.win hjws howner hends
  unfold issueConfirmed
  split_ifs
  · exact leased_pure _
  · refine leased_next trivial fun guarded => ?_
    show Leased id k _
    split_ifs
    · refine leased_next ⟨rfl, hwin rfl rfl rfl⟩ fun r => ?_
      split
      · refine leased_waited none ?_
        rcases hk with rfl | ⟨signed, rfl⟩
        · exact ⟨nofun, nofun⟩
        · exact ⟨nofun, nofun⟩
      · refine leased_issueWon ?_
        rcases hk with rfl | ⟨signed, rfl⟩
        · exact Or.inl rfl
        · cases signed with
          | none => exact Or.inr ⟨none, rfl⟩
          | some state => exact Or.inl rfl
    · refine leased_next ⟨rfl, Write.move (by decide) rfl ⟨rfl, rfl⟩⟩ fun _ => ?_
      exact leased_pure _

theorem leased_resolveDecided (hk : k.Open) : Leased id k (resolveDecided rules deps fuel id row chain now) := by
  unfold resolveDecided
  dsimp only
  split
  · refine leased_next ⟨rfl, Write.move (by decide) rfl ⟨rfl, rfl⟩⟩ fun _ => ?_
    exact leased_pure _
  · split_ifs
    · exact leased_pure _
    · exact leased_issueConfirmed hk
    · refine leased_next ⟨rfl, Write.move (by decide) rfl ⟨rfl, rfl⟩⟩ fun r => ?_
      rw [show next k (.casLate id [.unknown] .confirmed _) (some r) = k from write_same rfl (Or.inr hk) _]
      exact leased_present hk.looks fun row => leased_issueConfirmed (hk.read _)

theorem leased_resolveOpen (hk : k.Open) : Leased id k (resolveOpen rules deps fuel id row now) := by
  unfold resolveOpen
  by_cases hstate : row.state ≠ .unknown ∧ row.state ≠ .confirmed
  · rw [if_pos hstate]
    exact leased_pure _
  rw [if_neg hstate]
  refine leased_next trivial fun chain => ?_
  show Leased id k _
  split
  · exact leased_resolveDecided hk
  · rename_i patch hpatch
    obtain ⟨tx_hint, scanned_to, rfl⟩ := scanPatch_marks hpatch
    have hopen : LateState.issuing ∉ [row.state] ∧ LateState.issued ∉ [row.state] := by
      constructor
      · rintro hmem
        exact hstate (by rw [← List.mem_singleton.1 hmem]; decide)
      · rintro hmem
        exact hstate (by rw [← List.mem_singleton.1 hmem]; decide)
    refine leased_next ⟨rfl, Write.move hopen rfl ⟨rfl, rfl⟩⟩ fun r => ?_
    rw [show next k (.casLate id [row.state] row.state _) (some r) = k from write_same rfl (Or.inr hk) _]
    exact leased_present hk.looks fun row => leased_resolveDecided (hk.read _)

/-- Where a run stands that has just read the row, and none of its own. -/
def Stand.Saw (k : Stand) (row : LateRow) : Prop :=
  k = .gone ∨ (row.jws.isSome ∧ ∃ state, k = .looked false (some state)) ∨ (row.jws = none ∧ k = .looked false none)

theorem Stand.Saw.open (h : k.Saw row) : k.Open := by
  rcases h with rfl | ⟨-, state, rfl⟩ | ⟨-, rfl⟩
  · exact Or.inl rfl
  · exact Or.inr ⟨_, rfl⟩
  · exact Or.inr ⟨_, rfl⟩

theorem saw_sight (signed : Option LateState) (row : LateRow) : (sight false signed row).Saw row := by
  rcases sight_cases false signed row with h | ⟨h, hjws⟩ | ⟨h, hjws, -⟩
  · exact Or.inl h
  · exact Or.inr (Or.inl ⟨hjws, _, h⟩)
  · exact Or.inr (Or.inr ⟨hjws, h⟩)

theorem Stand.Open.saw (h : k.Open) (row : LateRow) : (k.read (some row)).Saw row := by
  rcases h with rfl | ⟨signed, rfl⟩
  · exact Or.inl rfl
  · exact saw_sight signed row

theorem leased_resolveIssuing (hk : k.Saw row) : Leased id k (resolveIssuing rules deps fuel id row now) := by
  unfold resolveIssuing
  by_cases hstate : row.state ≠ .issuing
  · rw [if_pos hstate]
    exact leased_resolveOpen hk.open
  rw [if_neg hstate]
  split
  · rename_i jws hjws
    refine leased_publishIssued fuel ?_
    rcases hk with rfl | ⟨-, state, rfl⟩ | ⟨hnone, -⟩
    · exact Or.inl (Or.inl rfl)
    · exact Or.inr ⟨state, Or.inr ⟨false, rfl⟩⟩
    · rw [hnone] at hjws
      cases hjws
  · rename_i hjws
    have htake : ∀ {patch : LatePatch}, patch.jws = some none → patch.lease_owner = some none →
        Write k [.issuing] .confirmed patch := by
      intro patch hpatch howner
      rcases hk with rfl | ⟨hsome, -⟩ | ⟨-, rfl⟩
      · exact Write.gone
      · rw [hjws] at hsome
        cases hsome
      · exact Write.takeBack hpatch howner
    split_ifs
    · exact leased_waited _ hk.open.looks
    · refine leased_next ⟨rfl, htake rfl rfl⟩ fun r => ?_
      rw [show next k (.casLate id [.issuing] .confirmed _) (some r) = k from write_same rfl (Or.inr hk.open) _]
      split
      · exact leased_pure _
      · exact leased_present hk.open.looks fun row => leased_resolveOpen (hk.open.read _)

/-- **A RUN STANDS BY ITS LEASE**, whatever record it is called with and whatever it is answered. -/
theorem leased_resolveLateRecord (record : LateRow) :
    Leased id .idle (resolveLateRecord rules deps fuel id record) := by
  unfold resolveLateRecord
  refine leased_next trivial fun now => ?_
  refine leased_next ⟨rfl, nofun, nofun⟩ fun row => ?_
  show Leased id (Stand.timed.read row) _
  have hrow : (Stand.timed.read row).Saw (row.getD record) := by
    cases row with
    | none => exact Or.inl rfl
    | some row => exact saw_sight none row
  generalize Stand.timed.read row = k at hrow
  dsimp only
  split_ifs
  · exact leased_pure _
  · exact leased_pure _
  · refine leased_next ⟨rfl, Write.move (by decide) rfl ⟨rfl, rfl⟩⟩ fun r => ?_
    rw [show next k (.casLate id [.submitted] .unknown _) (some r) = k from write_same rfl (Or.inr hrow.open) _]
    exact leased_present hrow.open.looks fun row => leased_resolveIssuing (hrow.open.saw row)
  · exact leased_pure _
  · exact leased_resolveIssuing hrow

end LateLease
