import Chit402.LateSignerProofs
import Chit402.LateTurnProofs

/-! # Closed rows

    A publication writes the state of the row back as it has read it, so a
    run that another one has overtaken opens an issued row again.  Where the
    runs keep to the leases, none is overtaken between its read and its
    writes, and every chain answer names its network, only a full match is
    signed and a closed row stays closed. -/

namespace LateClosed

open Interleaving LateStore LateIssue LateMatch LateLease LateOnce LateSigner LateTurn Trace

variable {ids : ℕ → String} {s : World × Watch} {n m : ℕ} {o : Op} {e : Event} {k k' : Stand} {allowed : List LateState}
  {target state : LateState} {patch : LatePatch} {rec : LateRow} {won : Bool}

/-- **The condition on one operation.** It keeps to the leases. A chain answer names its network, the signer is
    asked before the lease of the run ends, and nobody has issued the row between the last read of a run and
    a write of it that takes issued rows. -/
def InTurn (s : World × Watch) (n : ℕ) (o : Op) (e : Event) : Prop :=
  ByLease s n o e ∧ match o with
  | .readChain _ => (firstOf [e.chain.network]).isSome
  | .signer .. => ∀ ends ∈ s.2.lease n, e.time < ends
  | .casLate id allowed _ patch => .issued ∈ allowed → (target? s.1 e id allowed patch).isSome →
      s.2.seen n = s.2.issues id
  | _ => True

instance decidableInTurn (s : World × Watch) (n : ℕ) (o : Op) (e : Event) : Decidable (InTurn s n o e) :=
  match o with
  | .readChain chain =>
    inferInstanceAs (Decidable (ByLease s n (.readChain chain) e ∧ (firstOf [e.chain.network]).isSome = true))
  | .signer row chain issuedAt =>
    inferInstanceAs (Decidable (ByLease s n (.signer row chain issuedAt) e ∧ ∀ ends ∈ s.2.lease n, e.time < ends))
  | .casLate id allowed target patch => inferInstanceAs (Decidable (ByLease s n (.casLate id allowed target patch) e
      ∧ (LateState.issued ∈ allowed → (target? s.1 e id allowed patch).isSome = true → s.2.seen n = s.2.issues id)))
  | .getLate _ | .appendLateLedger _ | .isTxSpent _ | .reserveTx .. | .releaseTx .. | .markTxSpent ..
  | .markAuthSpent .. | .markSpent .. | .now | .reorgGuard .. | .recordLedger _ | .appendLog .. =>
    inferInstanceAs (Decidable (ByLease s n _ e ∧ True))

/-! ## What a publishing run has read -/

/-- The state in which a run has seen its row signed. An issued row stays so, and until somebody issues it, the row
    is in that state. -/
def Current (ids : ℕ → String) (n : ℕ) (k : Stand) (s : World × Watch) : Prop :=
  match k with
  | .looked _ (some state) => ∀ row ∈ s.1.late.lookup (ids n), (state = .issued → row.state = .issued)
      ∧ (s.2.seen n = s.2.issues (ids n) → row.state = state)
  | _ => True

/-- No run has seen a row issued more often than it was. -/
def Counted (ids : ℕ → String) (s : World × Watch) : Prop := ∀ n, s.2.seen n ≤ s.2.issues (ids n)

theorem issues_watched (id : String) : s.2.issues id ≤ (watched s n o e).1.2.issues id := by
  cases o with
  | casLate id' allowed target patch =>
    dsimp only [watched, Watch.next]
    split_ifs
    · by_cases h : id = id'
      · subst h
        rw [Function.update_self]
        omega
      · rw [Function.update_of_ne h]
    · exact le_rfl
  | _ => exact le_rfl

theorem issues_unmoved (h : Unmoved s o e) : (watched s n o e).1.2.issues = s.2.issues := by
  cases o with
  | casLate id allowed target patch =>
    dsimp only [watched, Watch.next]
    rw [show target? s.1 e id allowed patch = none from h]
    rfl
  | _ => rfl

theorem seen_watched (h : (∀ id, o ≠ .getLate id) ∨ m ≠ n) : (watched s n o e).1.2.seen m = s.2.seen m := by
  cases o with
  | getLate id =>
    rcases h with h | h
    · exact (h id rfl).elim
    · dsimp only [watched, Watch.next]
      split_ifs
      · rw [Function.update_of_ne h]
      · rfl
  | _ => rfl

theorem counted_watched (h : Counted ids s) (hproper : Proper (ids n) k o) : Counted ids (watched s n o e).1 := by
  intro m
  refine le_trans ?_ (issues_watched (ids m))
  by_cases hget : (∀ id, o ≠ .getLate id) ∨ m ≠ n
  · rw [seen_watched hget]
    exact h m
  · obtain ⟨hread, hsame⟩ := not_or.1 hget
    obtain ⟨id, hid⟩ := not_forall.1 hread
    obtain rfl : m = n := of_not_not hsame
    obtain rfl : o = .getLate id := of_not_not hid
    obtain ⟨rfl, -⟩ := hproper
    dsimp only [watched, Watch.next]
    split_ifs
    · rw [Function.update_self]
    · exact h m

theorem read_state {row : Option LateRow} (h : k.read row = .looked won (some state)) :
    ∃ found, row = some found ∧ found.state = state := by
  have hsight : ∀ {won' signed found}, sight won' signed found = .looked won (some state) → found.state = state := by
    intro won' signed found h
    rcases sight_cases won' signed found with h' | ⟨h', -⟩ | ⟨h', -⟩
    · rw [h'] at h
      cases h
    · rw [h'] at h
      cases h
      rfl
    · rw [h'] at h
      cases h
  cases row with
  | none => cases h
  | some found =>
    refine ⟨found, rfl, ?_⟩
    cases k with
    | looked won' signed => exact hsight h
    | gone => cases h
    | _ => exact hsight h

/-- An operation that moves no row. -/
theorem current_unmoved (h : Unmoved s o e) (hseen : (watched s n o e).1.2.seen m = s.2.seen m)
    (hk : Current ids m k s) :
    Current ids m k (watched s n o e).1 := by
  have hrows := (watched_unmoved (n := n) h).1
  cases k with
  | looked won signed =>
    cases signed with
    | none => trivial
    | some state =>
      intro row hrow
      rw [hrows] at hrow
      rw [hseen, issues_unmoved h]
      exact hk row hrow
  | _ => trivial

/-- What a run has just read is current. -/
theorem current_read (h : k.read (s.1.late.lookup (ids n)) = k') : Current ids n k' s := by
  cases k' with
  | looked won signed =>
    cases signed with
    | none => trivial
    | some state =>
      intro row hrow
      obtain ⟨found, hfound, rfl⟩ := read_state h
      rw [hfound] at hrow
      cases hrow
      exact ⟨fun h => h, fun _ => rfl⟩
  | _ => trivial

/-- **STEP**: a turn that meets a signed row leaves its state, or issues it. -/
theorem target_of_turn (hturn : Turn k allowed e.time (s.2.lease n) rec target patch) (hk : Current ids n k s)
    (hinturn : InTurn s n (.casLate (ids n) allowed target patch) e)
    (htarget : target? s.1 e (ids n) allowed patch = some rec) (hsigned : rec.jws.isSome) :
    rec.state = target ∨ (target = .issued ∧ .issued ∉ allowed) := by
  have hunsigned : rec.jws ≠ none := Option.isSome_iff_ne_none.1 hsigned
  cases hturn with
  | moved _ hrec => exact (hunsigned hrec).elim
  | won _ hrec => exact (hunsigned hrec).elim
  | taken _ hrec => exact (hunsigned hrec).elim
  | holding _ _ _ _ hrec => exact (hunsigned hrec).elim
  | given _ _ _ hrec => exact (hunsigned hrec).elim
  | published _ _ _ _ hback =>
    rcases hback with ⟨hissued, won, rfl⟩ | hissues
    · have hseen : s.2.seen n = s.2.issues (ids n) := hinturn.2 hissued (by rw [htarget]; rfl)
      exact Or.inl ((hk rec (mem_target htarget).1).2 hseen)
    · exact Or.inr hissues

/-- A turn keeps what any run on the row has seen, as far as it is still current. -/
theorem current_turn (hturn : Turn k allowed e.time (s.2.lease n) rec target patch) (hk : Current ids n k s)
    (hinturn : InTurn s n (.casLate (ids n) allowed target patch) e)
    (htarget : target? s.1 e (ids n) allowed patch = some rec) (hcounted : Counted ids s) {signed : Option LateState}
    (hids : ids m = ids n) (hlooked : Looked ids m won signed s) (hcurrent : Current ids m (.looked won signed) s) :
    Current ids m (.looked won signed) (watched s n (.casLate (ids n) allowed target patch) e).1 := by
  cases signed with
  | none => trivial
  | some state =>
    intro row hrow
    have hrec : rec ∈ s.1.late.lookup (ids m) := hids ▸ (mem_target htarget).1
    have hsigned : rec.jws.isSome := by
      have hsome := (hlooked.signed state rfl).2
      rw [World.jwsOn, hrec] at hsome
      exact hsome
    obtain ⟨hstays, hsame⟩ := hcurrent rec hrec
    rw [hids, (watched_cas target htarget).1] at hrow
    cases hrow
    have hafter : (rec.assign patch target).state = target := rfl
    have hread : (watched s n (.casLate (ids n) allowed target patch) e).1.2.seen m = s.2.seen m := rfl
    rw [hafter, hread]
    rcases target_of_turn hturn hk hinturn htarget hsigned with hkept | ⟨hissued, hnot⟩
    · refine ⟨fun hissued => hkept ▸ hstays hissued, fun hseen => hkept ▸ hsame ?_⟩
      have hle := issues_watched (s := s) (n := n) (o := .casLate (ids n) allowed target patch) (e := e) (ids m)
      have hcount := hcounted m
      omega
    · refine ⟨fun _ => hissued, fun hseen => ?_⟩
      have hmore : (watched s n (.casLate (ids n) allowed target patch) e).1.2.issues (ids m)
        = s.2.issues (ids m) + 1 := by
        dsimp only [watched, Watch.next]
        rw [htarget, hids, if_pos ⟨rfl, hissued, hnot⟩, Function.update_self]
      have hcount := hcounted m
      omega

/-- The stand after a turn is the one before, or the row has just been signed. -/
theorem write_looked {r : Option (Option LateRow)} (h : k.write allowed target patch r = .looked won (some state)) :
    k = .looked won (some state) ∨ (state = .issuing ∧ target = .issuing) := by
  cases k with
  | looked won' signed =>
    unfold Stand.write at h
    cases won' with
    | false =>
      dsimp only at h
      by_cases howner : patch.lease_owner.join.isNone
      · rw [if_pos howner] at h
        exact Or.inl h
      rw [if_neg howner] at h
      rcases r with _ | _ | written
      · cases h
      · exact Or.inl h
      · cases signed with
        | none => cases h
        | some seen => cases h
    | true =>
      dsimp only at h
      by_cases hallowed : allowed ≠ [.issuing]
      · rw [if_pos hallowed] at h
        exact Or.inl h
      rw [if_neg hallowed] at h
      rcases r with _ | _ | written
      · cases h
      · exact Or.inl h
      · dsimp only at h
        split_ifs at h with hissuing hjws
        · cases h
          exact Or.inr ⟨rfl, hissuing⟩
        · exact Or.inl h
  | _ => cases h

/-! ## Every operation -/

/-- What a run relies on, and that it is current. -/
def Relies (ids : ℕ → String) (n : ℕ) (k : Stand) (s : World × Watch) : Prop := Stands ids n k s ∧ Current ids n k s

/-- **STEP**: an operation in turn keeps what its run has seen. -/
theorem current_watched (hinv : Leases ids s) (hcounted : Counted ids s) (hk : Relies ids n k s)
    (hproper : Proper (ids n) k o) (hinturn : InTurn s n o e) :
    Current ids n (next k o (watched s n o e).2) (watched s n o e).1 := by
  obtain ⟨hstands, hcurrent⟩ := hk
  rcases turn_cases hinv hstands hproper hinturn.1 with hunmoved | ⟨allowed, target, patch, rec, rfl, -, htarget, hturn⟩
  · have hrows := (watched_unmoved (n := n) hunmoved).1
    cases o with
    | now =>
      cases k with
      | idle => trivial
      | _ => exact current_unmoved hunmoved rfl hcurrent
    | getLate id =>
      obtain ⟨rfl, -⟩ := hproper
      rcases exec_cases s.1 n (.getLate (ids n)) e with ⟨hexec, -⟩ | ⟨hexec, hfails⟩ | ⟨hexec, hfails⟩
      · show Current ids n (next k _ (exec s.1 n (.getLate (ids n)) e).2) _
        rw [hexec]
        refine current_read (k := k) ?_
        rw [hrows]
        rfl
      all_goals
        have hseen : (watched s n (.getLate (ids n)) e).1.2.seen n = s.2.seen n := by
          dsimp only [watched, Watch.next]
          rw [hfails, if_neg nofun]
        show Current ids n (next k _ (exec s.1 n (.getLate (ids n)) e).2) _
        rw [hexec]
        exact current_unmoved hunmoved hseen hcurrent
    | casLate id allowed target patch =>
      have hstays : Current ids n k (watched s n (.casLate id allowed target patch) e).1 :=
        current_unmoved hunmoved rfl hcurrent
      show Current ids n (k.write allowed target patch (exec s.1 n (.casLate id allowed target patch) e).2) _
      rcases write_missed (answer_unmoved hunmoved) with h | h
      · rw [h]
        exact hstays
      · rw [h]
        trivial
    | _ => exact current_unmoved hunmoved rfl hcurrent
  · generalize hafter : next k (.casLate (ids n) allowed target patch)
      (watched s n (.casLate (ids n) allowed target patch) e).2 = after
    cases after with
    | looked won signed =>
      cases signed with
      | none => trivial
      | some state =>
        rcases write_looked hafter with rfl | ⟨rfl, rfl⟩
        · exact current_turn hturn hcurrent hinturn htarget hcounted rfl hstands hcurrent
        · intro row hrow
          rw [(watched_cas _ htarget).1] at hrow
          cases hrow
          exact ⟨nofun, fun _ => rfl⟩
    | _ => trivial

theorem current_other (hinv : Leases ids s) (hcounted : Counted ids s) (hk : Relies ids n k s)
    (hproper : Proper (ids n) k o) (hinturn : InTurn s n o e) (hne : m ≠ n) (hk' : Relies ids m k' s) :
    Current ids m k' (watched s n o e).1 := by
  obtain ⟨hstands, hcurrent⟩ := hk
  have hseen : (watched s n o e).1.2.seen m = s.2.seen m := seen_watched (Or.inr hne)
  rcases turn_cases hinv hstands hproper hinturn.1 with hunmoved | ⟨allowed, target, patch, rec, rfl, -, htarget, hturn⟩
  · exact current_unmoved hunmoved hseen hk'.2
  · cases k' with
    | looked won signed =>
      by_cases hids : ids m = ids n
      · exact current_turn hturn hcurrent hinturn htarget hcounted hids hk'.1 hk'.2
      · cases signed with
        | none => trivial
        | some state =>
          intro row hrow
          have hissues : (watched s n (.casLate (ids n) allowed target patch) e).1.2.issues (ids m)
            = s.2.issues (ids m) := by
            dsimp only [watched, Watch.next]
            split_ifs
            · rw [Function.update_of_ne hids]
            · rfl
          rw [(watched_cas target htarget).2.1 _ hids] at hrow
          rw [hseen, hissues]
          exact hk'.2 row hrow
    | _ => trivial

/-- A step in turn is a steady one. -/
theorem steady_of_inTurn {answers : ℕ → Set (Answer Op Res)} (hinv : Leases ids s) (hk : Relies ids n k s)
    (hproper : Proper (ids n) k o) (hinturn : InTurn s n o e) : Steady ids (s.1, answers) n o e := by
  obtain ⟨hstands, hcurrent⟩ := hk
  cases o with
  | readChain record => exact hinturn.2
  | signer current chain issuedAt =>
    intro row hrow
    rcases hproper with rfl | ⟨signed, rfl⟩
    · rw [show s.1.late.lookup (ids n) = none from hstands] at hrow
      cases hrow
    · obtain ⟨ends, -, -, hlive⟩ := Looked.live hstands hinv hinturn.1.1 hinturn.2
      exact (hlive row hrow).1
  | casLate id allowed target patch =>
    obtain ⟨rfl, hwrite⟩ := hproper
    intro hfails row hcas
    have htarget : target? s.1 e (ids n) allowed patch = some row := (if_neg hfails).trans hcas
    refine ⟨(turn_of_write hinv hstands hwrite hinturn.1 htarget).unsigned, ?_⟩
    intro hissued
    cases hwrite with
    | move hopen => exact (hopen.2 hissued).elim
    | win => exact absurd hissued (by decide)
    | takeBack => exact absurd hissued (by decide)
    | hold => exact absurd hissued (by decide)
    | giveBack => exact absurd hissued (by decide)
    | issue => exact absurd hissued (by decide)
    | publish =>
      have hseen : s.2.seen n = s.2.issues (ids n) := hinturn.2 hissued (by rw [htarget]; rfl)
      exact (hcurrent row (mem_target htarget).1).2 hseen
    | gone =>
      have hrow := (mem_target htarget).1
      rw [show s.1.late.lookup (ids n) = none from hstands] at hrow
      cases hrow
  | _ => trivial

/-! ## Every schedule -/

/-- **ONLY A FULL MATCH IS SIGNED, AND A CLOSED ROW STAYS CLOSED**: under every schedule, from rows that are
    being published if they are signed, as long as every operation is in turn. -/
theorem signsFullMatch_of_inTurn (rules : Rules) (ids : ℕ → String) (deps : ℕ → Deps) (fuel : ℕ → ℕ)
    (record : ℕ → LateRow) (w : World) (since : ℤ)
    (hsigned : ∀ n, ∀ row ∈ w.late.lookup (ids n), row.jws.isSome → row.state = .issuing ∨ row.state = .issued)
    {events : List (ℕ × Event)} (hmeets : MeetsRun watched InTurn
      (watchedRuns rules ids deps fuel record w since) events) :
    SignsFullMatch rules ids deps fuel record w events := by
  refine signsFullMatch_of_steady rules ids deps fuel record w ?_
  have hstart : Judged (fun n => Proper (ids n)) (fun _ => next) (fun _ _ _ => True)
      (fun s => Leases ids s ∧ Counted ids s) (Relies ids) (watchedRuns rules ids deps fuel record w since) :=
    ⟨⟨leases_start hsigned, fun _ => le_rfl⟩, fun _ => ⟨.idle, ⟨rfl, trivial⟩, leased_resolveLateRecord _⟩⟩
  refine MeetsRun.lockstep (R := fun s s' => s.1 = s'.1) ?_ ?_ ?_ ?_ rfl hstart hmeets
  · rintro s ⟨w, answers⟩ n o e rfl
    exact ⟨rfl, rfl⟩
  · rintro s ⟨w, answers⟩ n o e k rfl ⟨hinv, -⟩ hk hproper hinturn
    exact steady_of_inTurn hinv hk hproper hinturn
  · rintro s n o e k ⟨hinv, hcounted⟩ hk hproper hinturn
    obtain ⟨hleases, hstands⟩ := leases_watched hinv hk.1 hproper hinturn.1
    exact ⟨⟨hleases, counted_watched hcounted hproper⟩, hstands, current_watched hinv hcounted hk hproper hinturn⟩
  · rintro s n m o e k k' ⟨hinv, hcounted⟩ hk hproper hinturn hne hk'
    exact ⟨stands_watched hinv hk.1 hproper hinturn.1 hne hk'.1, current_other hinv hcounted hk hproper hinturn hne hk'⟩

/-- A row that changes hands. -/
theorem signsFullMatch_of_inTurn_sample : SignsFullMatch sampleRules (fun _ => "r") takeoverDeps (fun _ => 2)
    (fun _ => sampleRow) sampleWorld (takeoverEvents.take 42) := by
  refine signsFullMatch_of_inTurn sampleRules (fun _ => "r") _ _ _ sampleWorld 0 ?_ (by decide +kernel)
  intro _ row hrow hsigned
  cases hrow
  cases hsigned

end LateClosed
