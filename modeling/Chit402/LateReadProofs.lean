import Chit402.LateIssueProofs

/-! # What a late run shows

    Every place a signature can come out of a run, its answer, the receipt
    log, the usage ledger and the public receipt, shows a signature the run
    has read from the row.  This is read off one run alone, for any answers
    from outside. -/

namespace LateRead

open Interleaving LateStore LateIssue

variable (rules : Rules) (id : String)

/-! ## What a run reads -/

/-- The signature a row shows. A row that is not there can show anything. -/
def seen : Option LateRow → Set Jws
  | some row => fun jws => row.jws = some jws
  | none => Set.univ

/-- What an operation adds to the signatures a run has read. -/
def learn (k : Set Jws) : (o : Op) → Option (Res o) → Set Jws
  | .getLate _, some row => k ∪ seen row
  | .casLate .., some (some row) => k ∪ seen (some row)
  | _, _ => k

/-- The operations of a run on the row. What they show, the run has read. -/
def Shows (k : Set Jws) : Op → Prop
  | .getLate id' => id' = id
  | .casLate id' _ _ patch => id' = id ∧ ∀ receipt ∈ patch.public_receipt, receipt.jws ∈ k
  | .recordLedger receipt => receipt.jws ∈ k
  | .appendLog _ digest => ∃ jws : Jws, jws ∈ k ∧ digest = rules.sha256 jws
  | _ => True

def Answers (k : Set Jws) : Option LateAnswer → Prop
  | some a => ∀ jws, a.jws = some jws → jws ∈ k
  | none => True

/-- A program that shows only what it has read. -/
abbrev Careful {α : Type} (fin : Set Jws → Option α → Prop) (k : Set Jws) (p : Prog α) : Prop :=
  Judge (Shows rules id) learn fin k p

variable {rules id} {α β : Type} {k k' : Set Jws}

theorem le_learn (k : Set Jws) (o : Op) (r : Option (Res o)) : k ⊆ learn k o r := by
  unfold learn
  split
  · exact Set.subset_union_left
  · exact Set.subset_union_left
  · exact subset_rfl

theorem learn_mono (h : k ⊆ k') (o : Op) (r : Option (Res o)) : learn k o r ⊆ learn k' o r := by
  unfold learn
  split
  · exact Set.union_subset_union_left _ h
  · exact Set.union_subset_union_left _ h
  · exact h

variable {jws : Jws} {a : LateAnswer} {patch : LatePatch} {fresh row : LateRow} {target : LateState}
  {allowed : List LateState} {o : Op} {p : Prog α} {fin : Set Jws → Option β → Prop} {f : α → Prog β}

theorem Shows.mono (h : k ⊆ k') (hs : Shows rules id k o) : Shows rules id k' o := by
  unfold Shows at *
  split at hs
  · exact hs
  · exact ⟨hs.1, fun r hr => h (hs.2 r hr)⟩
  · exact h hs
  · obtain ⟨jws, hj, hd⟩ := hs
    exact ⟨jws, h hj, hd⟩
  · trivial

/-- An end that more knowledge does not spoil. -/
def Up (fin : Set Jws → Option α → Prop) : Prop := ∀ (k k' : Set Jws) (r), k ⊆ k' → fin k r → fin k' r

theorem answers_up : Up Answers := by
  intro k k' r hle h
  cases r with
  | none => trivial
  | some a => exact fun jws hj => hle (h jws hj)

theorem Careful.up {fin : Set Jws → Option α → Prop} (hfin : Up fin) (hle : k ⊆ k') (h : Careful rules id fin k p) :
    Careful rules id fin k' p :=
  Judge.transfer (fun k k' : Set Jws => k ⊆ k') (fun _ _ _ hle hs => hs.mono hle)
    (fun _ _ o r hle => learn_mono hle o r)
    hfin hle h

theorem careful_call (hfin : Up fin) (hthrown : fin k none) {f : Res o → Prog β} (hs : Shows rules id k o)
    (h : ∀ r, Careful rules id fin k (f r)) : Careful rules id fin k (Prog.call o >>= f) :=
  judge_call_bind hs (fun r => (h r).up hfin (le_learn k o _)) (hfin _ _ _ (le_learn k o _) hthrown)

/-- The next read of the row. -/
theorem careful_getLate (hup : Up fin) (hthrown : fin k none) {f : Option LateRow → Prog β}
    (h : ∀ row, Careful rules id fin (k ∪ seen row) (f row)) : Careful rules id fin k (Prog.call (.getLate id) >>= f) :=
  judge_call_bind rfl h (hup _ _ _ (le_learn k _ _) hthrown)

theorem careful_present (hup : Up fin) (hthrown : fin k none) {f : LateRow → Prog β}
    (h : ∀ row, Careful rules id fin (k ∪ seen (some row)) (f row)) :
    Careful rules id fin k (Prog.call (.getLate id) >>= fun row => present row >>= f) := by
  refine careful_getLate hup hthrown ?_
  intro row
  cases row with
  | some row => exact h row
  | none => exact hup _ _ _ Set.subset_union_left hthrown

/-! ## Pieces that answer nothing -/

/-- A piece of a program whose end needs nothing. -/
def Quiet (rules : Rules) (id : String) (k : Set Jws) (p : Prog α) : Prop :=
  Careful rules id (fun k' _ => k ⊆ k') k p

theorem quiet_up : Up fun (k' : Set Jws) (_ : Option α) => k ⊆ k' := fun _ _ _ hle h => h.trans hle

theorem careful_then (hup : Up fin) (hthrown : fin k none) (hp : Quiet rules id k p)
    (h : ∀ a, Careful rules id fin k (f a)) : Careful rules id fin k (p >>= f) := by
  refine judge_bind (Judge.mono ?_ hp)
  intro k' r hle
  cases r with
  | some a => exact (h a).up hup hle
  | none => exact hup _ _ _ hle hthrown

theorem quiet_call (hs : Shows rules id k o) : Quiet rules id k (call o) :=
  judge_call hs (fun _ => le_learn k o _) (le_learn k o _)

theorem quiet_pure (a : α) : Quiet rules id k (pure a) := subset_rfl

theorem quiet_bind (hp : Quiet rules id k p) (h : ∀ a, Quiet rules id k (f a)) : Quiet rules id k (p >>= f) :=
  careful_then quiet_up subset_rfl hp h

theorem quiet_attempt {p : Prog Unit} (hp : Quiet rules id k p) : Quiet rules id k (attempt p) := by
  refine judge_orElse (Judge.mono ?_ (quiet_bind hp fun _ => quiet_pure true))
  intro k' r hle
  cases r with
  | some a => exact hle
  | none => exact hle

theorem quiet_appendLeaf (record : LateRow) {digest : String} (h : ∃ jws : Jws, jws ∈ k ∧ digest = rules.sha256 jws) :
    Quiet rules id k (appendLeaf record digest) := by
  unfold appendLeaf
  split_ifs
  · exact quiet_pure true
  · exact quiet_call h

theorem quiet_whenText (text : Option String) {f : String → Prog Unit} (h : ∀ text, Quiet rules id k (f text)) :
    Quiet rules id k (whenText text f) := by
  unfold whenText
  split
  · exact h _
  · exact quiet_pure ()

theorem quiet_markIssued (fresh : LateRow) (chain : Chain) (txRef : Option String) :
    Quiet rules id k (markIssued fresh chain txRef) := by
  unfold markIssued
  refine quiet_bind (quiet_whenText _ fun _ => quiet_call trivial) fun _ => ?_
  refine quiet_bind (quiet_whenText _ fun _ => quiet_call trivial) fun _ => ?_
  exact quiet_whenText _ fun _ => quiet_call trivial

/-! ## The programs -/

theorem careful_pure (h : ∀ jws, a.jws = some jws → jws ∈ k) : Careful rules id Answers k (pure a) := h

/-- An answer without a signature. -/
theorem careful_blank (h : a.jws = none) : Careful rules id Answers k (pure a) := by
  intro jws hjws
  rw [h] at hjws
  cases hjws

/-- A compare-and-set that shows nothing. -/
theorem shows_cas (hreceipt : patch.public_receipt = none) : Shows rules id k (.casLate id allowed target patch) := by
  refine ⟨rfl, ?_⟩
  rw [hreceipt]
  rintro receipt ⟨⟩

theorem careful_publishLogged (chain : Chain) (hjws : jws ∈ k) :
    Careful rules id Answers k (publishLogged rules id fresh jws chain) := by
  unfold publishLogged
  refine careful_then answers_up trivial (quiet_whenText _ fun _ => quiet_call trivial) fun _ => ?_
  refine careful_then answers_up trivial (quiet_appendLeaf _ ⟨jws, hjws, rfl⟩) fun logged => ?_
  split_ifs with hlogged
  · refine careful_call answers_up trivial (shows_cas rfl) fun _ => ?_
    refine careful_then answers_up trivial (quiet_markIssued ..) fun _ => ?_
    refine careful_pure ?_
    rintro jws' ⟨⟩
    exact hjws
  · exact careful_blank rfl

theorem careful_publishSigned (chain : Chain) (hjws : jws ∈ k) :
    Careful rules id Answers k (publishSigned rules id fresh jws chain) := by
  have hreceipt : Shows rules id k (.casLate id [.issuing, .confirmed, .issued] fresh.state
      { public_receipt := some (publicLateReceipt rules id fresh chain jws)
        receipt_id := some (publicLateReceipt rules id fresh chain jws).receipt_id }) := by
    refine ⟨rfl, ?_⟩
    rintro receipt ⟨⟩
    exact hjws
  unfold publishSigned
  refine careful_call answers_up trivial hreceipt fun _ => ?_
  split_ifs with hrecorded
  · exact careful_publishLogged chain hjws
  · have hwrite : Shows rules id k (.recordLedger (publicLateReceipt rules id fresh chain jws)) := hjws
    refine careful_then answers_up trivial (quiet_attempt (quiet_bind (quiet_call hwrite) fun _ => ?_))
      fun recorded => ?_
    · exact quiet_bind (quiet_call (shows_cas rfl)) fun _ => quiet_pure ()
    · split_ifs
      · exact careful_publishLogged chain hjws
      · exact careful_blank rfl

theorem quiet_sign (deps : Deps) (current : LateRow) (chain : Chain) (issuedAt : ℤ) :
    Quiet rules id k (sign deps current chain issuedAt) := by
  have hnone : Quiet rules id k (pure (none : Option Jws)) := quiet_pure none
  unfold sign
  refine judge_orElse ?_
  split_ifs
  · refine judge_bind (judge_call trivial ?_ hnone)
    intro r
    cases r with
    | some jws => exact Set.Subset.refl k
    | none => exact hnone
  · exact hnone

theorem careful_publishIssued (deps : Deps) (chain : Chain) (fuel : ℕ) :
    ∀ {k : Set Jws} {record : LateRow}, seen (some record) ⊆ k →
      Careful rules id Answers k (publishIssued rules deps id chain fuel record) := by
  induction fuel with
  | zero => exact fun _ => trivial
  | succ fuel ih =>
    intro k record hrecord
    unfold publishIssued
    refine careful_getLate answers_up trivial fun row => ?_
    have hfresh : seen (some (row.getD record)) ⊆ k ∪ seen row := by
      cases row with
      | some row => exact Set.subset_union_right
      | none => exact Set.subset_union_of_subset_right (Set.subset_univ _) _
    dsimp only
    split
    · rename_i jws hjws
      have hknown : jws ∈ k ∪ seen row := hfresh hjws
      split_ifs
      · refine careful_pure ?_
        rintro jws' ⟨⟩
        exact hknown
      · exact careful_publishSigned chain hknown
    · refine careful_call answers_up trivial trivial fun now => ?_
      refine careful_call answers_up trivial (shows_cas rfl) fun _ => ?_
      refine careful_present answers_up trivial fun current => ?_
      refine careful_then answers_up trivial (quiet_sign ..) fun signed => ?_
      split
      · refine careful_call answers_up trivial (shows_cas rfl) fun _ => ?_
        exact careful_blank rfl
      · refine careful_call answers_up trivial (shows_cas rfl) fun persisted => ?_
        split
        · exact careful_blank rfl
        · exact careful_present answers_up trivial fun row => ih Set.subset_union_right

theorem careful_waited (state : Option LateState) : Careful rules id Answers k (waited id state) := by
  have hwait : ∀ tries (k : Set Jws), Careful rules id (fun k' r => ∀ jws, r = some (some jws) → jws ∈ k') k
      (waitForJws id tries) := by
    intro tries
    induction tries with
    | zero =>
      rintro k jws ⟨⟩
    | succ tries ih =>
      intro k
      unfold waitForJws
      refine judge_call_bind rfl ?_ ?_
      · intro row
        split
        · rename_i jws hjws
          rintro jws' ⟨⟩
          cases row with
          | some row => exact Or.inr hjws
          | none => cases hjws
        · exact ih _
      · rintro jws ⟨⟩
  unfold waited
  refine judge_bind (Judge.mono ?_ (hwait 40 k))
  intro k' r h
  cases r with
  | none => trivial
  | some jws =>
    cases jws with
    | none => exact careful_blank rfl
    | some jws =>
      refine careful_pure ?_
      rintro jws' ⟨⟩
      exact h jws rfl

theorem quiet_reserveCaught (ref authKey reserveOwner : String) :
    Quiet rules id k (reserveCaught ref authKey reserveOwner) := by
  have hcall : Quiet rules id k (call (.reserveTx ref authKey reserveOwner 180000)) := quiet_call trivial
  refine judge_orElse (Judge.mono ?_ (quiet_bind hcall fun held => quiet_pure (some held)))
  intro k' r hle
  cases r with
  | some _ => exact hle
  | none => exact hle

theorem quiet_releaseUnspent (ref authKey reserveOwner : String) :
    Quiet rules id k (releaseUnspent ref authKey reserveOwner) := by
  unfold releaseUnspent
  refine quiet_bind (quiet_attempt ?_) fun _ => quiet_pure ()
  refine quiet_bind (quiet_call trivial) fun spent => ?_
  split_ifs
  · exact quiet_pure ()
  · exact quiet_call trivial

theorem careful_publishWon (deps : Deps) (fuel : ℕ) (row : LateRow) (chain : Chain) (held : Option (String × String)) :
    Careful rules id Answers k (publishWon rules deps fuel id row chain held) := by
  have hpublish : ∀ deps : Deps, Careful rules id Answers k (do
      let record ← present (← call (.getLate id))
      publishIssued rules deps id { chain with tx := txOf row chain } fuel record) := fun deps =>
    careful_present answers_up trivial fun record => careful_publishIssued deps _ fuel Set.subset_union_right
  unfold publishWon
  dsimp only
  cases held with
  | none => exact hpublish _
  | some held =>
    refine judge_andFinally (Judge.mono ?_ (hpublish _))
    intro k' r hfin
    refine Judge.mono ?_ (quiet_releaseUnspent ..)
    intro k'' r' hle
    cases r' with
    | some _ => exact answers_up _ _ _ hle hfin
    | none => trivial

theorem careful_issueWon (deps : Deps) (fuel : ℕ) (row : LateRow) (chain : Chain) :
    Careful rules id Answers k (issueWon rules deps fuel id row chain) := by
  unfold issueWon
  refine careful_call answers_up trivial (shows_cas rfl) fun _ => ?_
  dsimp only
  split
  · exact careful_publishWon ..
  · refine careful_then answers_up trivial (quiet_reserveCaught ..) fun held => ?_
    split
    · refine careful_call answers_up trivial (shows_cas rfl) fun _ => ?_
      exact careful_blank rfl
    · refine careful_call answers_up trivial trivial fun spent => ?_
      split_ifs
      · refine careful_call answers_up trivial (shows_cas rfl) fun _ => ?_
        exact careful_blank rfl
      · refine careful_call answers_up trivial (shows_cas rfl) fun _ => ?_
        exact careful_blank rfl
    · exact careful_publishWon ..

theorem careful_issueConfirmed (deps : Deps) (fuel : ℕ) (row : LateRow) (chain : Chain) (now : ℤ) :
    Careful rules id Answers k (issueConfirmed rules deps fuel id row chain now) := by
  unfold issueConfirmed
  split_ifs
  · exact careful_blank rfl
  · refine careful_call answers_up trivial trivial fun guarded => ?_
    split_ifs
    · refine careful_call answers_up trivial (shows_cas rfl) fun won => ?_
      split
      · exact careful_waited none
      · exact careful_issueWon ..
    · refine careful_call answers_up trivial (shows_cas rfl) fun _ => ?_
      exact careful_blank rfl

theorem careful_decided (deps : Deps) (fuel : ℕ) (row : LateRow) (chain : Chain) (now : ℤ) :
    Careful rules id Answers k (resolveDecided rules deps fuel id row chain now) := by
  unfold resolveDecided
  dsimp only
  split
  · refine careful_call answers_up trivial (shows_cas rfl) fun _ => ?_
    exact careful_blank rfl
  · split_ifs
    · exact careful_blank rfl
    · exact careful_issueConfirmed ..
    · refine careful_call answers_up trivial (shows_cas rfl) fun _ => ?_
      exact careful_present answers_up trivial fun row => careful_issueConfirmed ..

theorem careful_resolveOpen (deps : Deps) (fuel : ℕ) (row : LateRow) (now : ℤ) :
    Careful rules id Answers k (resolveOpen rules deps fuel id row now) := by
  unfold resolveOpen
  split_ifs
  · exact careful_blank rfl
  · refine careful_call answers_up trivial trivial fun chain => ?_
    cases hpatch : scanPatch row chain with
    | none => exact careful_decided ..
    | some patch =>
      obtain ⟨tx_hint, scanned_to, rfl⟩ := scanPatch_marks hpatch
      refine careful_call answers_up trivial (shows_cas rfl) fun _ => ?_
      exact careful_present answers_up trivial fun row => careful_decided ..

theorem careful_resolveIssuing (deps : Deps) (fuel : ℕ) (now : ℤ) (hrow : seen (some row) ⊆ k) :
    Careful rules id Answers k (resolveIssuing rules deps fuel id row now) := by
  unfold resolveIssuing
  by_cases hstate : row.state ≠ .issuing
  · rw [if_pos hstate]
    exact careful_resolveOpen ..
  rw [if_neg hstate]
  split
  · exact careful_publishIssued deps _ fuel hrow
  · split_ifs
    · exact careful_waited _
    · refine careful_call answers_up trivial (shows_cas rfl) fun recovered => ?_
      split
      · exact careful_blank rfl
      · exact careful_present answers_up trivial fun row => careful_resolveOpen ..

/-- **A RUN SHOWS WHAT IT READ**, whatever record it is called with. -/
theorem careful_resolveLateRecord (deps : Deps) (fuel : ℕ) (record : LateRow) :
    Careful rules id Answers k (resolveLateRecord rules deps fuel id record) := by
  unfold resolveLateRecord
  refine careful_call answers_up trivial trivial fun now => ?_
  refine careful_getLate answers_up trivial fun row => ?_
  have hrow : seen (some (row.getD record)) ⊆ k ∪ seen row := by
    cases row with
    | some row => exact Set.subset_union_right
    | none => exact Set.subset_union_of_subset_right (Set.subset_univ _) _
  dsimp only
  split_ifs
  · exact careful_blank rfl
  · exact careful_pure fun jws hjws => hrow hjws
  · refine careful_call answers_up trivial (shows_cas rfl) fun _ => ?_
    exact careful_present answers_up trivial fun row => careful_resolveIssuing deps fuel now Set.subset_union_right
  · exact careful_blank rfl
  · exact careful_resolveIssuing deps fuel now hrow

end LateRead
