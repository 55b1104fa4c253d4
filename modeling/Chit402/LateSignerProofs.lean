import Chit402.LateMatchProofs
import Chit402.LateOnceProofs

/-! # Only a full match is signed

    Every program of a late run is orderly: it asks the signer only about a
    chain read of its own that decides the row, it takes a row from open
    states, and it puts a signature only on a row in `issuing`.  What the
    runs cannot see is that the row has changed under them, so the rest is a
    condition on the state each operation finds. -/

namespace LateSigner

open Interleaving LateStore LateIssue LateMatch LateOnce Trace

variable {rules : Rules} {deps : Deps} {id : String} {k k' : Told} {α β : Type}

/-! ## The programs -/

theorem ordered_attempt {p : Prog Unit} (hp : Ordered rules deps id k p) : Ordered rules deps id k (attempt p) :=
  ordered_orElse (ordered_bind hp fun _ _ _ => ordered_pure true) fun _ _ => ordered_pure false

theorem ordered_whenText (text : Option String) {f : String → Prog Unit}
    (h : ∀ text, Ordered rules deps id k (f text)) :
    Ordered rules deps id k (whenText text f) := by
  unfold whenText
  split
  · exact h _
  · exact ordered_pure ()

theorem ordered_appendLeaf (record : LateRow) (digest : String) :
    Ordered rules deps id k (appendLeaf record digest) := by
  unfold appendLeaf
  split_ifs
  · exact ordered_pure true
  · exact ordered_call trivial

theorem ordered_markIssued (fresh : LateRow) (chain : Chain) (txRef : Option String) :
    Ordered rules deps id k (markIssued fresh chain txRef) := by
  unfold markIssued
  refine ordered_bind (ordered_whenText _ fun _ => ordered_call trivial) fun _ _ _ => ?_
  refine ordered_bind (ordered_whenText _ fun _ => ordered_call trivial) fun _ _ _ => ?_
  exact ordered_whenText _ fun _ => ordered_call trivial

theorem ordered_publishLogged (fresh : LateRow) (jws : Jws) (chain : Chain) :
    Ordered rules deps id k (publishLogged rules id fresh jws chain) := by
  unfold publishLogged
  refine ordered_bind (ordered_whenText _ fun _ => ordered_call trivial) fun k₁ _ _ => ?_
  refine ordered_bind (ordered_appendLeaf ..) fun k₂ logged _ => ?_
  split_ifs
  · refine ordered_next (orderly_open (by decide) rfl) fun _ => ?_
    refine ordered_bind (ordered_markIssued ..) fun _ _ _ => ?_
    exact ordered_pure _
  · exact ordered_pure _

theorem ordered_publishSigned (fresh : LateRow) (jws : Jws) (chain : Chain) :
    Ordered rules deps id k (publishSigned rules id fresh jws chain) := by
  unfold publishSigned
  refine ordered_next (orderly_open (by decide) rfl) fun _ => ?_
  split_ifs
  · exact ordered_publishLogged ..
  · refine ordered_bind (ordered_attempt ?_) fun k₁ recorded _ => ?_
    · refine ordered_next trivial fun _ => ?_
      refine ordered_next (orderly_open (by decide) rfl) fun _ => ?_
      exact ordered_pure ()
    · split_ifs
      · exact ordered_publishLogged ..
      · exact ordered_pure _

/-- What a publication of an unsigned row rests on. -/
def Entitled (rules : Rules) (deps : Deps) (id : String) (k : Told) (chain : Chain) : Prop :=
  k.broken ∨ Decided rules deps id k chain

variable {chain : Chain} {deps' : Deps} {row : LateRow} {fuel : ℕ} {now : ℤ}

theorem Entitled.mono (hle : Told.Le k k') (h : Entitled rules deps id k chain) : Entitled rules deps id k' chain := by
  rcases h with hbroken | hdecided
  · exact Or.inl (hle.broken hbroken)
  · exact Or.inr (hdecided.mono hle)

theorem ordered_sign (current : LateRow) (issuedAt : ℤ) (h : Entitled rules deps id k chain) :
    Ordered rules deps id k (sign deps' current chain issuedAt) := by
  unfold sign
  refine ordered_orElse ?_ fun _ _ => ordered_pure none
  split_ifs
  · refine ordered_next h fun signed => ?_
    cases signed with
    | some jws => exact ordered_pure _
    | none => exact ordered_thrown
  · exact ordered_thrown

theorem ordered_publishIssued (fuel : ℕ) :
    ∀ {k : Told} {record : LateRow}, (Entitled rules deps id k chain ∨ (k.signed ∧ record.jws.isSome) ∨ k.absent) →
      Ordered rules deps id k (publishIssued rules deps' id chain fuel record) := by
  induction fuel with
  | zero => exact fun _ => ordered_thrown
  | succ fuel ih =>
    intro k record h
    unfold publishIssued
    refine ordered_next rfl fun row => ?_
    have hle : Told.Le k (tell k (.getLate id) (some row)) := le_tell ..
    generalize hk₁ : tell k (.getLate id) (some row) = k₁ at hle
    dsimp only
    split
    · split_ifs
      · exact ordered_pure _
      · exact ordered_publishSigned ..
    · rename_i hunsigned
      -- an unsigned row was read, or there is none
      have hentitled : Entitled rules deps id k₁ chain ∨ k₁.absent := by
        cases row with
        | none =>
          right
          rw [← hk₁]
          trivial
        | some row =>
          left
          have hreads := reads_tell k id row
          rw [hk₁] at hreads
          rcases h with hentitled | ⟨hsigned, -⟩ | habsent
          · exact hentitled.mono hle
          · exact Or.inl (hreads.lost hsigned hunsigned)
          · exact Or.inl (hreads.appeared habsent)
      refine ordered_next trivial fun now => ?_
      refine ordered_next (orderly_open (by decide) rfl) fun _ => ?_
      refine ordered_present fun k₂ current hcurrent => ?_
      have hle₂ : Told.Le k₁ k₂ := ((le_tell ..).trans (le_tell ..)).trans hcurrent.le
      have hnow : Entitled rules deps id k₂ chain := by
        rcases hentitled with hentitled | habsent
        · exact hentitled.mono hle₂
        · exact Or.inl (hcurrent.appeared (((le_tell ..).trans (le_tell ..)).absent habsent))
      refine ordered_bind (ordered_sign _ _ hnow) fun k₃ signed hle₃ => ?_
      split
      · refine ordered_next ⟨rfl, by decide, fun _ => rfl⟩ fun _ => ?_
        exact ordered_pure _
      · refine ordered_next ⟨rfl, by decide, fun _ => rfl⟩ fun persisted => ?_
        split
        · exact ordered_pure _
        · refine ordered_present fun k₄ row hrow => ?_
          exact ih (Or.inl (hnow.mono ((hle₃.trans (le_tell ..)).trans hrow.le)))

theorem ordered_waited (state : Option LateState) : Ordered rules deps id k (waited id state) := by
  have hwait : ∀ tries {k : Told}, Ordered rules deps id k (waitForJws id tries) := by
    intro tries
    induction tries with
    | zero => exact ordered_pure none
    | succ tries ih =>
      intro k
      unfold waitForJws
      refine ordered_next rfl fun row => ?_
      split
      · exact ordered_pure _
      · exact ih
  unfold waited
  refine ordered_bind (hwait 40) fun _ jws _ => ?_
  split
  · exact ordered_pure _
  · exact ordered_pure _

theorem ordered_reserveCaught (ref authKey reserveOwner : String) :
    Ordered rules deps id k (reserveCaught ref authKey reserveOwner) := by
  unfold reserveCaught
  refine ordered_orElse ?_ fun _ _ => ordered_pure none
  exact ordered_next trivial fun held => ordered_pure (some held)

theorem ordered_releaseUnspent (ref authKey reserveOwner : String) :
    Ordered rules deps id k (releaseUnspent ref authKey reserveOwner) := by
  unfold releaseUnspent
  refine ordered_bind (ordered_attempt ?_) fun _ _ _ => ordered_pure ()
  refine ordered_next trivial fun spent => ?_
  split_ifs
  · exact ordered_pure ()
  · exact ordered_call trivial

theorem ordered_publishWon (held : Option (String × String))
    (h : Entitled rules deps id k { chain with tx := txOf row chain } ∨ k.absent) :
    Ordered rules deps id k (publishWon rules deps fuel id row chain held) := by
  have hpublish : Ordered rules deps id k (do
      let record ← present (← call (.getLate id))
      publishIssued rules { deps with canSign := true } id { chain with tx := txOf row chain } fuel record) := by
    refine ordered_present fun k₁ record hrecord => ?_
    refine ordered_publishIssued fuel (Or.inl ?_)
    rcases h with hentitled | habsent
    · exact hentitled.mono hrecord.le
    · exact Or.inl (hrecord.appeared habsent)
  unfold publishWon
  dsimp only
  cases held with
  | none => exact hpublish
  | some held => exact ordered_andFinally hpublish fun _ _ => ordered_releaseUnspent ..

theorem ordered_issueWon (h : Entitled rules deps id k { chain with tx := txOf row chain } ∨ k.absent) :
    Ordered rules deps id k (issueWon rules deps fuel id row chain) := by
  have hlater : ∀ {k' : Told}, Told.Le k k' →
    Entitled rules deps id k' { chain with tx := txOf row chain } ∨ k'.absent :=
    fun hle => h.imp (Entitled.mono hle) hle.absent
  unfold issueWon
  refine ordered_next (orderly_open (by decide) rfl) fun _ => ?_
  dsimp only
  split
  · exact ordered_publishWon none (hlater (le_tell ..))
  · refine ordered_bind (ordered_reserveCaught ..) fun k₁ held hle => ?_
    split
    · refine ordered_next (orderly_open (by decide) rfl) fun _ => ?_
      exact ordered_pure _
    · refine ordered_next trivial fun spent => ?_
      split_ifs
      · refine ordered_next (orderly_open (by decide) rfl) fun _ => ?_
        exact ordered_pure _
      · refine ordered_next (orderly_open (by decide) rfl) fun _ => ?_
        exact ordered_pure _
    · exact ordered_publishWon _ (hlater ((le_tell ..).trans hle))

/-- A chain read of the run that decides its row. -/
def Confirmed (rules : Rules) (deps : Deps) (id : String) (k : Told) (chain : Chain) : Prop :=
  ∃ row now, ⟨.getLate id, some (some row)⟩ ∈ k.answers ∧ ⟨.now, some now⟩ ∈ k.answers
    ∧ (∃ record, ⟨.readChain record, some chain⟩ ∈ k.answers) ∧ decideNext rules deps row chain now = .confirmed

theorem Confirmed.mono (hle : Told.Le k k') (h : Confirmed rules deps id k chain) :
    Confirmed rules deps id k' chain := by
  obtain ⟨row, now, hrow, hnow, ⟨record, hchain⟩, hnext⟩ := h
  exact ⟨row, now, hle.answers hrow, hle.answers hnow, ⟨record, hle.answers hchain⟩, hnext⟩

theorem ordered_issueConfirmed (h : Confirmed rules deps id k chain ∨ k.absent) :
    Ordered rules deps id k (issueConfirmed rules deps fuel id row chain now) := by
  unfold issueConfirmed
  split_ifs
  · exact ordered_pure _
  · refine ordered_next trivial fun guarded => ?_
    split_ifs
    · refine ordered_next (orderly_open (by decide) rfl) fun won => ?_
      split
      · exact ordered_waited none
      · rename_i rec
        refine ordered_issueWon ?_
        rcases h with hconfirmed | habsent
        · left
          right
          obtain ⟨row', now', hrow, hnow, ⟨record, hchain⟩, hnext⟩ := hconfirmed.mono ((le_tell ..).trans (le_tell ..))
          exact ⟨row', now', chain, hrow, hnow, ⟨record, hchain⟩, hnext, ⟨_, rec, Set.mem_insert ..⟩, rfl⟩
        · right
          exact ((le_tell ..).trans (le_tell ..)).absent habsent
    · refine ordered_next (orderly_open (by decide) rfl) fun _ => ?_
      exact ordered_pure _

theorem ordered_resolveDecided (hrow : Looked id k row) (hnow : ⟨.now, some now⟩ ∈ k.answers)
    (hchain : ∃ record, ⟨.readChain record, some chain⟩ ∈ k.answers) :
    Ordered rules deps id k (resolveDecided rules deps fuel id row chain now) := by
  unfold resolveDecided
  dsimp only
  split
  · refine ordered_next (orderly_open (by decide) rfl) fun _ => ?_
    exact ordered_pure _
  · by_cases hnext : decideNext rules deps row chain now ≠ .confirmed
    · rw [if_pos hnext]
      exact ordered_pure _
    rw [if_neg hnext]
    have hconfirmed : Confirmed rules deps id k chain ∨ k.absent := by
      rcases hrow with hread | habsent
      · exact Or.inl ⟨row, now, hread, hnow, hchain, of_not_not hnext⟩
      · exact Or.inr habsent
    split_ifs
    · exact ordered_issueConfirmed hconfirmed
    · refine ordered_next (orderly_open (by decide) rfl) fun _ => ?_
      refine ordered_present fun k₁ row' hrow' => ?_
      have hle : Told.Le k k₁ := (le_tell ..).trans hrow'.le
      exact ordered_issueConfirmed (hconfirmed.imp (Confirmed.mono hle) hle.absent)

theorem ordered_resolveOpen (hrow : Looked id k row) (hnow : ⟨.now, some now⟩ ∈ k.answers) :
    Ordered rules deps id k (resolveOpen rules deps fuel id row now) := by
  unfold resolveOpen
  by_cases hstate : row.state ≠ .unknown ∧ row.state ≠ .confirmed
  · rw [if_pos hstate]
    exact ordered_pure _
  rw [if_neg hstate]
  refine ordered_next trivial fun chain => ?_
  generalize hk₁ : tell k (.readChain row) (some chain) = k₁
  have hle : Told.Le k k₁ := by
    rw [← hk₁]
    exact le_tell ..
  have hchain : ∃ record, ⟨.readChain record, some chain⟩ ∈ k₁.answers := by
    rw [← hk₁]
    exact ⟨row, Set.mem_insert ..⟩
  split
  · exact ordered_resolveDecided (hrow.mono hle) (hle.answers hnow) hchain
  · rename_i patch hpatch
    have hopen : ∀ state ∈ [row.state], state.terminal → state = .issued := by
      intro state hmem hterminal
      rw [List.mem_singleton.1 hmem] at hterminal
      cases hwas : row.state with
      | unknown | confirmed =>
        rw [hwas] at hterminal
        cases hterminal
      | _ =>
        refine absurd ⟨?_, ?_⟩ hstate
        · rw [hwas]
          nofun
        · rw [hwas]
          nofun
    obtain ⟨tx_hint, scanned_to, rfl⟩ := scanPatch_marks hpatch
    refine ordered_next (orderly_open hopen rfl) fun _ => ?_
    refine ordered_present fun k₂ row' hrow' => ?_
    have hle' : Told.Le k₁ k₂ := (le_tell ..).trans hrow'.le
    obtain ⟨record, hread⟩ := hchain
    exact ordered_resolveDecided hrow'.looked ((hle.trans hle').answers hnow) ⟨record, hle'.answers hread⟩

theorem ordered_resolveIssuing (hrow : Looked id k row) (hsigned : row.jws.isSome → k.signed ∨ k.absent)
    (hnow : ⟨.now, some now⟩ ∈ k.answers) : Ordered rules deps id k (resolveIssuing rules deps fuel id row now) := by
  unfold resolveIssuing
  by_cases hstate : row.state ≠ .issuing
  · rw [if_pos hstate]
    exact ordered_resolveOpen hrow hnow
  rw [if_neg hstate]
  split
  · rename_i jws hjws
    have hsome : row.jws.isSome := by
      rw [hjws]
      rfl
    refine ordered_publishIssued fuel (Or.inr ?_)
    exact (hsigned hsome).imp (fun h => ⟨h, hsome⟩) fun h => h
  · split_ifs
    · exact ordered_waited _
    · refine ordered_next ⟨rfl, by decide, fun _ => rfl⟩ fun recovered => ?_
      split
      · exact ordered_pure _
      · refine ordered_present fun k₁ row' hrow' => ?_
        exact ordered_resolveOpen hrow'.looked (((le_tell ..).trans hrow'.le).answers hnow)

/-- **A RUN IS ORDERLY**, whatever record it is called with and whatever it is answered. -/
theorem ordered_resolveLateRecord (fuel : ℕ) (record : LateRow) :
    Ordered rules deps id k (resolveLateRecord rules deps fuel id record) := by
  unfold resolveLateRecord
  refine ordered_next trivial fun now => ?_
  refine ordered_next rfl fun row => ?_
  have hnow : ⟨.now, some now⟩ ∈ (tell (tell k .now (some now)) (.getLate id) (some row)).answers :=
    Set.mem_insert_of_mem _ (Set.mem_insert ..)
  have hrow : Looked id (tell (tell k .now (some now)) (.getLate id) (some row)) (row.getD record) := by
    cases row with
    | some row => exact Or.inl (Set.mem_insert ..)
    | none => exact Or.inr trivial
  have hsigned : (row.getD record).jws.isSome → (tell (tell k .now (some now)) (.getLate id) (some row)).signed
      ∨ (tell (tell k .now (some now)) (.getLate id) (some row)).absent := by
    intro hjws
    cases row with
    | some row => exact Or.inl (Or.inr hjws)
    | none => exact Or.inr trivial
  dsimp only
  split_ifs
  · exact ordered_pure _
  · exact ordered_pure _
  · refine ordered_next (orderly_open (by decide) rfl) fun _ => ?_
    refine ordered_present fun k₁ row' hrow' => ?_
    exact ordered_resolveIssuing hrow'.looked (fun hjws => Or.inl (hrow'.signed hjws))
      (((le_tell ..).trans hrow'.le).answers hnow)
  · exact ordered_pure _
  · exact ordered_resolveIssuing hrow hsigned hnow

/-! ## What is promised -/

/-- A pool of runs, each on a row of its own, that keeps what every run was answered. -/
def recordedRuns (rules : Rules) (ids : ℕ → String) (deps : ℕ → Deps) (fuel : ℕ → ℕ)
    (record : ℕ → LateRow) (w : World) :
    Config Op Res LateAnswer (World × (ℕ → Set (Answer Op Res))) where
  state := (w, fun _ => ∅)
  pool n := resolveLateRecord rules (deps n) (fuel n) (ids n) (record n)

/-- The signer is asked about a full match only, for a row that is open, and a closed row stays as it is. -/
structure SignsFullMatch (rules : Rules) (ids : ℕ → String) (deps : ℕ → Deps) (fuel : ℕ → ℕ) (record : ℕ → LateRow)
    (w : World) (events : List (ℕ × Event)) : Prop where
  matched : ∀ before n e after, events = before ++ (n, e) :: after →
    let c := run (step (recorded exec)) (recordedRuns rules ids deps fuel record w) before
    ∀ current chain issuedAt next, c.pool n = .op (.signer current chain issuedAt) next →
      ∃ row found now, w.late.lookup (ids n) = some row ∧ ⟨.now, some now⟩ ∈ c.state.2 n
        ∧ (∃ read, ⟨.readChain read, some found⟩ ∈ c.state.2 n)
        ∧ FullMatch rules (deps n).horizonMs row found now ∧ chain = { found with tx := chain.tx }
        ∧ ∀ row' ∈ c.state.1.late.lookup (ids n), row'.state.terminal = false
  closed : ∀ before between after, events = before ++ between ++ after →
    let c := run (step (recorded exec)) (recordedRuns rules ids deps fuel record w) before
    let c' := run (step (recorded exec)) (recordedRuns rules ids deps fuel record w) (before ++ between)
    ∀ key row, c.state.1.late.lookup key = some row → row.state.terminal = true →
      ∃ row', c'.state.1.late.lookup key = some row' ∧ row'.state = row.state ∧ row'.jws = row.jws

/-- **The condition on one operation.** A chain read names its network. A run asks the signer while its row
    is in `issuing`. A compare-and-set that writes or clears the signature finds none, and one that takes an
    `issued` row writes back the state it finds. -/
def Steady (ids : ℕ → String) (s : World × (ℕ → Set (Answer Op Res))) (n : ℕ) (o : Op) (e : Event) : Prop :=
  match o with
  | .readChain _ => (firstOf [e.chain.network]).isSome
  | .signer .. => ∀ row ∈ s.1.late.lookup (ids n), row.state = .issuing
  | .casLate key allowed target patch => e.fails ≠ some false → ∀ row ∈ casRow s.1.late key allowed patch,
      (patch.jws.isSome → row.jws = none) ∧ (LateState.issued ∈ allowed → row.state = target)
  | _ => True

/-! ## What the operations keep -/

variable {w : World} {n : ℕ} {o : Op} {e : Event} {key : String}

theorem absent_exec (h : w.late.lookup key = none) : (exec w n o e).1.late.lookup key = none := by
  refine exec_keeps (fun w => w.late.lookup key = none) h ?_
  intro _
  by_cases hrow : o.row = some key
  · cases o with
    | casLate key' allowed target patch =>
      cases hrow
      rw [(effect_cas ..).1]
      have hnone : casRow w.late key allowed patch = none := by
        unfold casRow
        rw [h]
        rfl
      rw [hnone, h]
      rfl
    | _ => cases hrow
  · rw [(effect_late hrow).1]
    exact h

theorem bill_exec (key : String) : ((exec w n o e).1.late.lookup key).map billOf = (w.late.lookup key).map billOf := by
  refine exec_keeps (fun w' => (w'.late.lookup key).map billOf = (w.late.lookup key).map billOf) rfl ?_
  intro _
  by_cases hrow : o.row = some key
  · cases o with
    | casLate key' allowed target patch =>
      cases hrow
      rw [(effect_cas ..).1]
      cases hcas : casRow w.late key allowed patch with
      | none => rfl
      | some rec =>
        rw [(casRow_eq_some.1 hcas).1]
        rfl
    | _ => cases hrow
  · rw [(effect_late hrow).1]

theorem signed_exec {ids : ℕ → String} {s : World × (ℕ → Set (Answer Op Res))} (h : (s.1.jwsOn key).isSome)
    (hsteady : Steady ids s n o e) : ((exec s.1 n o e).1.jwsOn key).isSome := by
  refine exec_keeps (fun w => (w.jwsOn key).isSome) h ?_
  intro hfails
  by_cases hrow : o.row = some key
  · cases o with
    | casLate key' allowed target patch =>
      cases hrow
      unfold World.jwsOn
      rw [(effect_cas ..).1]
      cases hcas : casRow s.1.late key allowed patch with
      | none => exact h
      | some rec =>
        have hrec : rec.jws.isSome := by
          unfold World.jwsOn at h
          rw [(casRow_eq_some.1 hcas).1] at h
          exact h
        show (patch.jws.getD rec.jws).isSome
        cases hjws : patch.jws with
        | none => exact hrec
        | some jws =>
          have hnone : rec.jws = none := (hsteady hfails rec hcas).1 (by rw [hjws]; rfl)
          rw [hnone] at hrec
          cases hrec
    | _ => cases hrow
  · unfold World.jwsOn
    rw [(effect_late hrow).1]
    exact h

/-- A closed row, as it was. -/
def Closed (key : String) (row : LateRow) (w : World) : Prop :=
  ∃ row', w.late.lookup key = some row' ∧ row'.state = row.state ∧ row'.jws = row.jws

theorem closed_exec {ids : ℕ → String} {s : World × (ℕ → Set (Answer Op Res))} (hterminal : row.state.terminal = true)
    (h : Closed key row s.1) (ho : Orderly rules deps id k o) (hsteady : Steady ids s n o e) :
    Closed key row (exec s.1 n o e).1 := by
  refine exec_keeps (Closed key row) h ?_
  intro hfails
  obtain ⟨row', hrow', hstate, hjws⟩ := h
  by_cases hkey : o.row = some key
  · cases o with
    | casLate key' allowed target patch =>
      cases hkey
      unfold Closed
      rw [(effect_cas ..).1]
      cases hcas : casRow s.1.late key allowed patch with
      | none => exact ⟨row', hrow', hstate, hjws⟩
      | some rec =>
        obtain ⟨hrec, hallowed, -⟩ := casRow_eq_some.1 hcas
        obtain rfl : rec = row' := Option.some.inj (hrec.symm.trans hrow')
        obtain ⟨-, hopen, hsigns⟩ := ho
        have hissued : rec.state = .issued := hopen _ hallowed (by rw [hstate]; exact hterminal)
        have htarget : rec.state = target := (hsteady hfails rec hcas).2 (hissued ▸ hallowed)
        refine ⟨_, rfl, htarget.symm.trans hstate, ?_⟩
        show patch.jws.getD rec.jws = row.jws
        cases hpatch : patch.jws with
        | none => exact hjws
        | some jws =>
          rw [hsigns (by rw [hpatch]; rfl), hissued] at hallowed
          exact absurd hallowed (by decide)
    | _ => cases hkey
  · rw [← (effect_late (w := s.1) (n := n) (e := e) hkey).1] at hrow'
    exact ⟨row', hrow', hstate, hjws⟩

/-! ## What a run knows -/

/-- What a run was told is in the history, and holds of the store. -/
structure Knows (ids : ℕ → String) (w : World) (n : ℕ) (k : Told) (s : World × (ℕ → Set (Answer Op Res))) : Prop where
  told : k.answers ⊆ s.2 n
  absent : k.absent → s.1.late.lookup (ids n) = none
  signed : k.signed → (s.1.jwsOn (ids n)).isSome
  intact : ¬ k.broken
  rows : ∀ row, ⟨.getLate (ids n), some (some row)⟩ ∈ k.answers →
    ∃ row', w.late.lookup (ids n) = some row' ∧ billOf row = billOf row'
  named : ∀ record chain, ⟨.readChain record, some chain⟩ ∈ k.answers → (firstOf [chain.network]).isSome

/-- The rows bill what they did at the start. -/
def SameBills (w : World) (s : World × (ℕ → Set (Answer Op Res))) : Prop :=
  ∀ key, (s.1.late.lookup key).map billOf = (w.late.lookup key).map billOf

variable {ids : ℕ → String} {s : World × (ℕ → Set (Answer Op Res))}

/-- What a look at the row tells is true. -/
theorem knows_getLate (hbills : SameBills w s) (h : Knows ids w n k s) :
    Knows ids w n (tell k (.getLate (ids n)) (exec s.1 n (.getLate (ids n)) e).2)
      (recorded exec s n (.getLate (ids n)) e).1 := by
  obtain ⟨htold, habsent, hsigned, hintact, hrows, hnamed⟩ := h
  have hworld : (recorded exec s n (.getLate (ids n)) e).1.1 = s.1 := exec_keeps (fun w => w = s.1) rfl fun _ => rfl
  -- the row, or no answer at all
  have hanswer : (exec s.1 n (.getLate (ids n)) e).2 = some (s.1.late.lookup (ids n))
      ∨ (exec s.1 n (.getLate (ids n)) e).2 = none := by
    rcases exec_cases s.1 n (.getLate (ids n)) e with ⟨hexec, -⟩ | ⟨hexec, -⟩ | ⟨hexec, -⟩
    · rw [hexec]
      exact Or.inl rfl
    · rw [hexec]
      exact Or.inr rfl
    · rw [hexec]
      exact Or.inr rfl
  have hhistory : (recorded exec s n (.getLate (ids n)) e).1.2 n
      = insert ⟨.getLate (ids n), (exec s.1 n (.getLate (ids n)) e).2⟩ (s.2 n) := recorded_own
  generalize (exec s.1 n (.getLate (ids n)) e).2 = answer at hanswer hhistory ⊢
  constructor
  case told =>
    rw [hhistory]
    exact Set.insert_subset_insert htold
  case absent =>
    rw [hworld]
    rcases hanswer with rfl | rfl
    · cases hlook : s.1.late.lookup (ids n) with
      | none => exact fun _ => rfl
      | some row =>
        intro h
        rw [habsent h] at hlook
        cases hlook
    · exact habsent
  case signed =>
    rw [hworld]
    rcases hanswer with rfl | rfl
    · cases hlook : s.1.late.lookup (ids n) with
      | none => exact hsigned
      | some row =>
        rintro (h | h)
        · exact hsigned h
        · unfold World.jwsOn
          rw [hlook]
          exact h
    · exact hsigned
  case intact =>
    rcases hanswer with rfl | rfl
    · cases hlook : s.1.late.lookup (ids n) with
      | none => exact hintact
      | some row =>
        rintro (h | h | ⟨h, hnone⟩)
        · exact hintact h
        · rw [habsent h] at hlook
          cases hlook
        · have hsome := hsigned h
          unfold World.jwsOn at hsome
          rw [hlook, Option.bind_some, hnone] at hsome
          cases hsome
    · exact hintact
  case rows =>
    rintro row (h | h)
    · rcases hanswer with rfl | rfl
      · cases hlook : s.1.late.lookup (ids n) with
        | none =>
          rw [hlook] at h
          cases h
        | some row' =>
          rw [hlook] at h
          cases h
          have hbill := hbills (ids n)
          rw [hlook, Option.map_some] at hbill
          obtain ⟨row₀, hrow₀, heq⟩ := Option.map_eq_some_iff.1 hbill.symm
          exact ⟨row₀, hrow₀, heq.symm⟩
      · cases h
    · exact hrows row h
  case named =>
    rintro record chain (h | h)
    · cases h
    · exact hnamed record chain h

/-- Any other operation adds its answer to the history. -/
theorem knows_other (hother : ∀ id, o ≠ .getLate id) (hsteady : Steady ids s n o e) (h : Knows ids w n k s) :
    Knows ids w n (tell k o (exec s.1 n o e).2) (recorded exec s n o e).1 := by
  obtain ⟨htold, habsent, hsigned, hintact, hrows, hnamed⟩ := h
  have htell : (tell k o (exec s.1 n o e).2).absent = k.absent ∧ (tell k o (exec s.1 n o e).2).signed = k.signed
      ∧ (tell k o (exec s.1 n o e).2).broken = k.broken := by
    cases o with
    | getLate id => exact (hother id rfl).elim
    | _ => exact ⟨rfl, rfl, rfl⟩
  constructor
  case told =>
    rw [recorded_own]
    exact Set.insert_subset_insert htold
  case absent =>
    rw [htell.1]
    exact fun h => absent_exec (habsent h)
  case signed =>
    rw [htell.2.1]
    exact fun h => signed_exec (hsigned h) hsteady
  case intact =>
    rw [htell.2.2]
    exact hintact
  case rows =>
    rintro row (h | h)
    · exact (hother _ (congrArg Sigma.fst h).symm).elim
    · exact hrows row h
  case named =>
    rintro record chain (h | h)
    · obtain rfl : o = .readChain record := (congrArg Sigma.fst h).symm
      have hanswer : some chain = (exec s.1 n (.readChain record) e).2 := eq_of_heq (Sigma.mk.inj h).2
      rcases exec_cases s.1 n (.readChain record) e with ⟨hexec, -⟩ | ⟨hexec, -⟩ | ⟨hexec, -⟩
      · rw [hexec] at hanswer
        rw [Option.some.inj hanswer]
        exact hsteady
      · rw [hexec] at hanswer
        cases hanswer
      · rw [hexec] at hanswer
        cases hanswer
    · exact hnamed record chain h

/-! ## Every schedule -/

/-- What every schedule keeps beside another invariant of the store. -/
abbrev Orderlies (rules : Rules) (ids : ℕ → String) (deps : ℕ → Deps) (w : World) (P : World → Prop) :
    Config Op Res LateAnswer (World × (ℕ → Set (Answer Op Res))) → Prop :=
  Judged (fun n => Orderly rules (deps n) (ids n)) (fun _ => tell) (fun _ _ _ => True)
    (fun s => SameBills w s ∧ P s.1) (Knows ids w)

theorem run_orderlies {deps : ℕ → Deps} {P : World → Prop} {events : List (ℕ × Event)}
    {c : Config Op Res LateAnswer (World × (ℕ → Set (Answer Op Res)))}
    (hP : ∀ s n o e k, P s.1 → Orderly rules (deps n) (ids n) k o → Steady ids s n o e → P (exec s.1 n o e).1)
    (h : Orderlies rules ids deps w P c) (hmeets : MeetsRun (recorded exec) (Steady ids) c events) :
    Orderlies rules ids deps w P (run (step (recorded exec)) c events) := by
  refine pool_keeps ?_ ?_ h hmeets
  · rintro s n o e k ⟨hbills, hp⟩ hk ho hsteady
    refine ⟨⟨fun key => (bill_exec key).trans (hbills key), hP s n o e k hp ho hsteady⟩, ?_⟩
    by_cases hget : ∃ id, o = .getLate id
    · obtain ⟨id, rfl⟩ := hget
      cases ho
      exact knows_getLate hbills hk
    · exact knows_other (fun id hid => hget ⟨id, hid⟩) hsteady hk
  · rintro s n m o e k k' - - - hsteady hm ⟨htold, habsent, hsigned, hintact, hrows, hnamed⟩
    refine ⟨?_, fun h => absent_exec (habsent h), fun h => signed_exec (hsigned h) hsteady, hintact, hrows, hnamed⟩
    rw [recorded_other hm]
    exact htold

theorem orderlies_recordedRuns (rules : Rules) (ids : ℕ → String) (deps : ℕ → Deps) (fuel : ℕ → ℕ)
    (record : ℕ → LateRow) (w : World) :
    Orderlies rules ids deps w (fun _ => True) (recordedRuns rules ids deps fuel record w) := by
  refine ⟨⟨fun _ => rfl, trivial⟩, fun n => ⟨⟨∅, False, False, False⟩, ?_, ?_⟩⟩
  · exact ⟨Set.empty_subset _, False.elim, False.elim, fun h => h, fun _ h => h.elim, fun _ _ h => h.elim⟩
  · exact Judge.mono (fun _ _ _ => trivial) (ordered_resolveLateRecord ..)

/-- **ONLY A FULL MATCH IS SIGNED**: under every schedule, with any answers, failures and crashes, as long as
    every operation finds its row as its run left it and every chain read names its network. -/
theorem signsFullMatch_of_steady (rules : Rules) (ids : ℕ → String) (deps : ℕ → Deps) (fuel : ℕ → ℕ)
    (record : ℕ → LateRow) (w : World) {events : List (ℕ × Event)}
    (hmeets : MeetsRun (recorded exec) (Steady ids) (recordedRuns rules ids deps fuel record w) events) :
    SignsFullMatch rules ids deps fuel record w events := by
  have hstart := orderlies_recordedRuns rules ids deps fuel record w
  constructor
  case matched =>
    rintro before n e after rfl c current chain issuedAt next hnext
    obtain ⟨hbefore, hafter⟩ := hmeets.append
    obtain ⟨⟨hbills, -⟩, hknow⟩ := run_orderlies (fun _ _ _ _ _ _ _ _ => trivial) hstart hbefore
    obtain ⟨k, hk, hjudge⟩ := hknow n
    have hsteady := hafter.1
    unfold Meets at hsteady
    rw [hnext] at hjudge
    dsimp only at hsteady
    rw [hnext] at hsteady
    rcases hjudge.1 with hbroken | hdecided
    · exact (hk.intact hbroken).elim
    obtain ⟨row, now, found, hrow, hnow, ⟨read, hfound⟩, hconfirmed, -, hchain⟩ := hdecided
    obtain ⟨row', hrow', hbill⟩ := hk.rows row hrow
    have hmatch := fullMatch_of_confirmed (hk.named read found hfound) hconfirmed
    refine ⟨row', found, now, hrow', hk.told hnow, ⟨read, hk.told hfound⟩, hmatch.of_bill hbill, hchain, ?_⟩
    intro now' hnow'
    rw [hsteady now' hnow']
    rfl
  case closed =>
    rintro before between after rfl c c' key row hrow hterminal
    obtain ⟨hboth, -⟩ := hmeets.append
    obtain ⟨hbefore, hbetween⟩ := hboth.append
    obtain ⟨⟨hbills, -⟩, hknow⟩ := run_orderlies (fun _ _ _ _ _ _ _ _ => trivial) hstart hbefore
    have hthere : Orderlies rules ids deps w (Closed key row) c := ⟨⟨hbills, row, hrow, rfl, rfl⟩, hknow⟩
    have hend := run_orderlies (fun _ _ _ _ _ hclosed ho hsteady =>
      closed_exec hterminal hclosed ho hsteady) hthere hbetween
    rw [← run_append] at hend
    exact hend.1.2

/-! ## Runs that break a promise -/

def stateOf (key : String) (c : Config Op Res LateAnswer (World × (ℕ → Set (Answer Op Res)))) : Option LateState :=
  (c.state.1.late.lookup key).map LateRow.state

theorem SignsFullMatch.stays {fuel : ℕ → ℕ} {deps : ℕ → Deps} {record : ℕ → LateRow} {before between : List (ℕ × Event)}
    {state : LateState} (h : SignsFullMatch rules ids deps fuel record w (before ++ between))
    (hstate : stateOf key (run (step (recorded exec)) (recordedRuns rules ids deps fuel record w) before) = some state)
    (hterminal : state.terminal = true) :
    stateOf key (run (step (recorded exec)) (recordedRuns rules ids deps fuel record w) (before ++ between))
      = some state := by
  obtain ⟨row, hrow, rfl⟩ := Option.map_eq_some_iff.1 hstate
  obtain ⟨row', hrow', hsame, -⟩ := h.closed before between [] (List.append_nil _).symm key row hrow hterminal
  rw [stateOf, hrow', Option.map_some, hsame]

/-- The sample runs, with their answers kept. -/
abbrev sampleRecorded (deps : ℕ → Deps) : Config Op Res LateAnswer (World × (ℕ → Set (Answer Op Res))) :=
  recordedRuns sampleRules (fun _ => "r") deps (fun _ => 2) (fun _ => sampleRow) sampleWorld

/-- The second run finds the signature while the first has still to publish it, and holds the row as `issuing`
    until the first has issued it. Then it writes its public receipt. -/
def reopenEvents : List (ℕ × Event) :=
  List.replicate 16 (0, sampleEvent firstJws) ++ List.replicate 3 (1, sampleEvent firstJws)
    ++ List.replicate 12 (0, sampleEvent firstJws)

/-- An issued row is `issuing` again. -/
theorem issued_row_reopens :
    stateOf "r" (run (step (recorded exec)) (sampleRecorded fun _ => sampleDeps) reopenEvents) = some .issued
      ∧ stateOf "r" (run (step (recorded exec)) (sampleRecorded fun _ => sampleDeps)
        (reopenEvents ++ [(1, sampleEvent firstJws)])) = some .issuing
      ∧ ¬ SignsFullMatch sampleRules (fun _ => "r") (fun _ => sampleDeps) (fun _ => 2) (fun _ => sampleRow) sampleWorld
        (reopenEvents ++ [(1, sampleEvent firstJws)]) := by
  have hbefore : stateOf "r" (run (step (recorded exec)) (sampleRecorded fun _ => sampleDeps) reopenEvents)
      = some .issued := by
    decide +kernel
  have hafter : stateOf "r" (run (step (recorded exec)) (sampleRecorded fun _ => sampleDeps)
      (reopenEvents ++ [(1, sampleEvent firstJws)])) = some .issuing := by
    decide +kernel
  refine ⟨hbefore, hafter, ?_⟩
  intro h
  have hissued := h.stays hbefore rfl
  rw [hissued] at hafter
  cases hafter

/-- A chain read that names no network. -/
def unnamedEvent : Event := { sampleEvent firstJws with chain := { sampleChain with network := none } }

def askedNetwork : Prog LateAnswer → Option (Option String)
  | .op (.signer _ chain _) _ => some chain.network
  | _ => none

/-- It is signed all the same. -/
theorem unnamed_network_is_signed : ¬ SignsFullMatch sampleRules (fun _ => "r") (fun _ => sampleDeps) (fun _ => 2)
    (fun _ => sampleRow) sampleWorld (List.replicate 15 (0, unnamedEvent)) := by
  have hasked : askedNetwork ((run (step (recorded exec)) (sampleRecorded fun _ => sampleDeps)
      (List.replicate 14 (0, unnamedEvent))).pool 0) = some none := by
    decide +kernel
  intro h
  generalize hpool : (run (step (recorded exec)) (sampleRecorded fun _ => sampleDeps)
    (List.replicate 14 (0, unnamedEvent))).pool 0 = p at hasked
  unfold askedNetwork at hasked
  split at hasked
  · rename_i current chain issuedAt next
    obtain ⟨row, found, now, -, -, -, hmatch, hchain, -⟩ :=
      h.matched (List.replicate 14 (0, unnamedEvent)) 0 unnamedEvent [] rfl current chain issuedAt next hpool
    obtain ⟨network, hnetwork, -⟩ := hmatch.network
    have hnone : found.network = none := by
      rw [hchain] at hasked
      exact Option.some.inj hasked
    rw [hnone] at hnetwork
    cases hnetwork
  · cases hasked

end LateSigner
