import Chit402.FirstComeProofs
import Chit402.NumberTextProofs

/-! # Who supersedes a row of a book

    A row claims another by one of its names.  The claimants of a row decide
    its report: none, one matching successor, or a fork.  A claimant shows the
    report of the row it claims, and finds that row in a table that keeps the
    first row of each name. -/

namespace Supersession

open FirstCome

/-- A field of a row: absent, a string, or another value with its text and its truth. -/
inductive Field where
  | missing
  | string (s : String)
  | other (shown : String) (truthy : Bool)
  deriving DecidableEq

structure Authority where
  subject_handle : Field
  subject_wallet : Field
  deriving DecidableEq

structure BookChain where
  row_hash : Field
  act : Field
  event : Field
  authority : Option Authority
  deriving DecidableEq

/-- `seq` is the number of the field when that is a positive integer. -/
structure Row where
  task_id : Field
  payment_ref : Field
  row_hash : Field
  supersedes : Field
  corrects : Field
  parent_ref : Field
  act : Field
  event : Field
  evidence : Field
  subject_handle : Field
  subject_wallet : Field
  payer : Field
  seq : Option ℕ
  authority : Option Authority
  book_chain : Option BookChain
  deriving DecidableEq

def trim (s : String) : String := String.ofList (NumberText.trim s.toList)

def text : Field → String
  | .missing => ""
  | .string s => trim s
  | .other shown _ => trim shown

def truthy : Field → Bool
  | .missing => false
  | .string s => s ≠ ""
  | .other _ t => t

/-- `a || b` -/
def either (a b : Field) : Field := if truthy a then a else b

/-- `text || null` -/
def nonempty (s : String) : Option String := if s = "" then none else some s

def ofChain (row : Row) (field : BookChain → Field) : Field := (row.book_chain.map field).getD .missing

def rowIdentity (row : Row) : Option String :=
  (nonempty (text row.task_id)).or (nonempty (text (either row.row_hash (ofChain row BookChain.row_hash))))

def isCorrectionRow (row : Row) : Bool :=
  let act := either row.act (ofChain row BookChain.act)
  let event := either row.event (either row.evidence (ofChain row BookChain.event))
  act = .string "correction" || event = .string "inflow_correction" || event = .string "correction"

def supersessionTarget (row : Row) : Option String :=
  let named := (nonempty (text row.supersedes)).or (nonempty (text row.corrects))
  named.or (if isCorrectionRow row then nonempty (text row.parent_ref) else none)

def aliasesOf (row : Row) : List String :=
  [row.task_id, row.payment_ref, row.row_hash, ofChain row BookChain.row_hash].foldl
    (fun out value => if text value ≠ "" ∧ text value ∉ out then out ++ [text value] else out) []

section Model

variable (toLowerCase : String → String)

def authorityOf (row : Row) : Authority :=
  (row.authority.or (row.book_chain.bind BookChain.authority)).getD ⟨.missing, .missing⟩

structure SubjectParts where
  handle : Option String
  wallet : Option String

def subjectParts (row : Row) : SubjectParts where
  handle := nonempty (text (either (authorityOf row).subject_handle row.subject_handle))
  wallet := (nonempty (text (either (authorityOf row).subject_wallet (either row.subject_wallet row.payer)))).map
    toLowerCase

def subjectLabel (row : Row) : Option String :=
  (subjectParts toLowerCase row).handle.or (subjectParts toLowerCase row).wallet

/-- Both sides name it and differ. -/
def conflict (want got : Option String) : Bool := want.isSome && got.isSome && got ≠ want

def successorMatchesSubject (successor subject : Row) : Bool :=
  let want := subjectParts toLowerCase subject
  let got := subjectParts toLowerCase successor
  if want.handle = none ∧ want.wallet = none then true
  else if conflict want.handle got.handle || conflict want.wallet got.wallet then false
  else want.handle.isSome && got.handle = want.handle || want.wallet.isSome && got.wallet = want.wallet

structure Successor where
  id : Option String
  seq : Option ℕ
  subject : Option String
  deriving DecidableEq

def successorView (row : Row) : Successor where
  id := rowIdentity row
  seq := row.seq
  subject := subjectLabel toLowerCase row

inductive Status where
  | none
  | linear
  | forked
  deriving DecidableEq

structure Report where
  successors : List Successor
  subject : Option String
  status : Status
  authoritative : Option String
  deriving DecidableEq

def reportSupersession (subject : Row) (claimants : List Row) : Report :=
  let successors := claimants.map (successorView toLowerCase)
  if claimants = [] then ⟨[], rowIdentity subject, .none, none⟩
  else match claimants.filter (successorMatchesSubject toLowerCase · subject) with
    | [tip] => ⟨successors, rowIdentity subject, .linear, rowIdentity tip⟩
    | _ => ⟨successors, rowIdentity subject, .forked, none⟩

/-- A row with an identity never claims itself, and only such a row is reported. -/
def claimantsOf (subject : Row) (rows : List Row) : List Row :=
  rows.filter fun other => rowIdentity other ≠ rowIdentity subject
    && (supersessionTarget other).any fun claimed => claimed ∈ aliasesOf subject

/-- A report as it is shown, with the one of the row it claims. -/
structure Surfaced extends Report where
  of_predecessor : Option Report
  deriving DecidableEq

def surfaceReport (mine : Report) (predReport : Option Report) : Surfaced :=
  match mine.status, predReport with
  | .forked, _ => ⟨mine, predReport⟩
  | .linear, some pred => if pred.status = .forked then ⟨pred, none⟩ else ⟨mine, some pred⟩
  | .none, some pred => if pred.status = .none then ⟨mine, none⟩ else ⟨pred, none⟩
  | _, none => ⟨mine, none⟩

def aliasTable (rows : List Row) : OrderedMap String Row := collect aliasesOf id rows

def predecessorOf (row : Row) (byAlias : OrderedMap String Row) : Option Row :=
    (supersessionTarget row).bind byAlias.lookup

def ownReport (rows : List Row) (row : Row) : Report := reportSupersession toLowerCase row (claimantsOf row rows)

def ownTable (rows : List Row) : OrderedMap String Report :=
  collect (fun row => (rowIdentity row).toList) (ownReport toLowerCase rows) rows

def indexSupersession (rows : List Row) : OrderedMap String Surfaced :=
  let byAlias := aliasTable rows
  let own := ownTable toLowerCase rows
  let reportOf := fun row => (rowIdentity row).bind own.lookup
  collect (fun row => (rowIdentity row).toList) (fun row =>
    surfaceReport ((reportOf row).getD (reportSupersession toLowerCase row []))
      ((predecessorOf row byAlias).bind reportOf)) rows

structure Tally where
  seen : List String
  forks : List Report
  linear : Bool

def tallyRow (rows : List Row) (tally : Tally) (row : Row) : Tally :=
  match rowIdentity row with
  | none => tally
  | some id =>
    if id ∈ tally.seen then tally
    else
      let report := ownReport toLowerCase rows row
      match report.status with
      | .forked => { tally with seen := tally.seen ++ [id], forks := tally.forks ++ [report] }
      | .linear => { tally with seen := tally.seen ++ [id], linear := true }
      | .none => { tally with seen := tally.seen ++ [id] }

structure Summary where
  status : Status
  authoritative : Option String
  forks : List Report

def summarizeSupersession (rows : List Row) : Summary :=
  let tally := rows.foldl (tallyRow toLowerCase rows) ⟨[], [], false⟩
  ⟨if tally.forks ≠ [] then .forked else if tally.linear then .linear else .none, none, tally.forks⟩

/-! ## What is settled -/

/-- What a report says, whatever the order of its successors. -/
structure Standing where
  status : Status
  authoritative : Option String
  successors : Set (Option String)

def Report.standing (r : Report) : Standing := ⟨r.status, r.authoritative, {id | ∃ s ∈ r.successors, s.id = id}⟩

def own (rows : List Row) (row : Row) : Standing := (ownReport toLowerCase rows row).standing

/-- A row without an identity is not reported. -/
def standingOf (rows : List Row) (row : Row) : Option Standing := (rowIdentity row).map fun _ =>
    own toLowerCase rows row

/-- What a row shows of the one it claims in place of its own: a fork, or a
    successor when it has none itself. -/
def passed (mine : Standing) (pred : Option Standing) : Option Standing :=
  match mine.status, pred with
  | .linear, some pred => if pred.status = .forked then some pred else none
  | .none, some pred => if pred.status = .none then none else some pred
  | _, _ => none

/-- Rows that share a claimed name pass the same on to the claimant. -/
def Unambiguous (rows : List Row) : Prop :=
  ∀ row ∈ rows, rowIdentity row ≠ none → ∀ target, supersessionTarget row = some target →
    ∀ c ∈ rows, ∀ d ∈ rows, target ∈ aliasesOf c → target ∈ aliasesOf d →
      passed (own toLowerCase rows row) (standingOf toLowerCase rows c)
        = passed (own toLowerCase rows row) (standingOf toLowerCase rows d)

def DistinctIds (rows : List Row) : Prop := (rows.filterMap rowIdentity).Nodup

def matching (rows : List Row) (subject : Row) : List Row :=
  (claimantsOf subject rows).filter (successorMatchesSubject toLowerCase · subject)

def shownFor (rows : List Row) (id : String) : Option Standing :=
  ((indexSupersession toLowerCase rows).lookup id).map fun r => r.toReport.standing

/-- **What is asked of a book.** -/
structure Settled (rows : List Row) : Prop where
  order : ∀ rows' : List Row, rows'.Perm rows → ∀ id, shownFor toLowerCase rows' id = shownFor toLowerCase rows id
  forks : ∀ subject ∈ rows, ∀ id, rowIdentity subject = some id → 2 ≤ (matching toLowerCase rows subject).length →
    ∃ r, shownFor toLowerCase rows id = some r ∧ r.status = .forked ∧ r.authoritative = none
  held : ∀ subject ∈ rows, rowIdentity subject ≠ none → 2 ≤ (matching toLowerCase rows subject).length →
    ∀ claimant ∈ claimantsOf subject rows, ∀ id, rowIdentity claimant = some id →
      ∀ r, shownFor toLowerCase rows id = some r → r.authoritative = none
  summary : (summarizeSupersession toLowerCase rows).status = .forked
    ↔ ∃ id r, shownFor toLowerCase rows id = some r ∧ r.status = .forked

end Model

/-! ## Own reports -/

variable {rows' : List Row} {row subject : Row}

section Own

variable {toLowerCase : String → String}

/-- The three reports a row can have. -/
theorem reportSupersession_cases (toLowerCase : String → String) (subject : Row) (claimants : List Row) :
    (claimants = [] ∧ (reportSupersession toLowerCase subject claimants).standing = ⟨.none, none, ∅⟩)
    ∨ (∃ tip, claimants.filter (successorMatchesSubject toLowerCase · subject) = [tip]
      ∧ (reportSupersession toLowerCase subject claimants).standing
        = ⟨.linear, rowIdentity tip, {id | ∃ c ∈ claimants, rowIdentity c = id}⟩)
    ∨ (claimants ≠ [] ∧ (claimants.filter (successorMatchesSubject toLowerCase · subject)).length ≠ 1
      ∧ (reportSupersession toLowerCase subject claimants).standing
        = ⟨.forked, none, {id | ∃ c ∈ claimants, rowIdentity c = id}⟩) := by
  have hids : {id | ∃ s ∈ claimants.map (successorView toLowerCase), s.id = id}
      = {id | ∃ c ∈ claimants, rowIdentity c = id} := by
    ext id
    constructor
    · rintro ⟨s, hs, rfl⟩
      obtain ⟨c, hc, rfl⟩ := List.mem_map.mp hs
      exact ⟨c, hc, rfl⟩
    · rintro ⟨c, hc, rfl⟩
      exact ⟨successorView toLowerCase c, List.mem_map_of_mem hc, rfl⟩
  by_cases hnil : claimants = []
  · refine .inl ⟨hnil, ?_⟩
    rw [reportSupersession, if_pos hnil, Report.standing]
    congr 1
    ext id
    exact iff_of_false (fun ⟨_, hmem, _⟩ => nomatch hmem) (Set.notMem_empty id)
  · rw [reportSupersession, if_neg hnil]
    split
    · rename_i tip hfilter
      refine .inr (.inl ⟨tip, hfilter, ?_⟩)
      rw [Report.standing, hids]
    · rename_i hmany
      refine .inr (.inr ⟨hnil, ?_, ?_⟩)
      · intro hlen
        obtain ⟨tip, htip⟩ := List.length_eq_one_iff.mp hlen
        exact hmany tip htip
      · rw [Report.standing, hids]

theorem reportSupersession_perm {claimants claimants' : List Row} (hperm : claimants'.Perm claimants) :
    (reportSupersession toLowerCase subject claimants').standing
      = (reportSupersession toLowerCase subject claimants).standing := by
  have hfilter := hperm.filter (successorMatchesSubject toLowerCase · subject)
  have hids : {id | ∃ c ∈ claimants', rowIdentity c = id} = {id | ∃ c ∈ claimants, rowIdentity c = id} := by
    ext id
    exact exists_congr fun c => and_congr_left' hperm.mem_iff
  obtain ⟨rfl, hs⟩ | ⟨tip, htip, hs⟩ | ⟨hne, hlen, hs⟩ := reportSupersession_cases toLowerCase subject claimants
  · rw [List.perm_nil.mp hperm]
  · rw [htip] at hfilter
    obtain ⟨rfl, -⟩ | ⟨other, hother, hs'⟩ | ⟨-, hlen', -⟩ := reportSupersession_cases toLowerCase subject claimants'
    · cases hfilter.length_eq
    · rw [List.perm_singleton.mp hfilter] at hother
      rw [hs, hs', hids, (List.cons.inj hother).1]
    · exact absurd hfilter.length_eq hlen'
  · obtain ⟨rfl, -⟩ | ⟨other, hother, -⟩ | ⟨-, -, hs'⟩ := reportSupersession_cases toLowerCase subject claimants'
    · exact absurd (List.nil_perm.mp hperm) hne
    · rw [hother] at hfilter
      exact absurd hfilter.length_eq.symm hlen
    · rw [hs, hs', hids]

variable {rows : List Row}

/-- **OWN REPORTS**: the order of a book is not seen in a row's own report. -/
theorem own_perm (hperm : rows'.Perm rows) (row : Row) : own toLowerCase rows' row = own toLowerCase rows row :=
  reportSupersession_perm (hperm.filter _)

theorem own_forked (h : 2 ≤ (matching toLowerCase rows subject).length) :
    (own toLowerCase rows subject).status = .forked := by
  obtain ⟨hnil, -⟩ | ⟨tip, htip, -⟩ | ⟨-, -, hs⟩ :=
    reportSupersession_cases toLowerCase subject (claimantsOf subject rows)
  · rw [matching, hnil] at h
    exact absurd h (Nat.not_succ_le_zero 1)
  · rw [matching, htip] at h
    exact absurd h (Nat.not_succ_le_self 1)
  · rw [own, ownReport, hs]

theorem own_forked_authoritative (h : (own toLowerCase rows row).status = .forked) :
    (own toLowerCase rows row).authoritative = none := by
  rw [own, ownReport] at h ⊢
  obtain ⟨-, hs⟩ | ⟨tip, -, hs⟩ | ⟨-, -, hs⟩ :=
    reportSupersession_cases toLowerCase row (claimantsOf row rows)
  · rw [hs]
  · rw [hs] at h
    cases h
  · rw [hs]

end Own

/-! ## The tables -/

variable {pred : Option Standing} {c : Row} {mine r : Standing}

section Tables

variable {toLowerCase : String → String} {rows : List Row}

theorem DistinctIds.perm (h : DistinctIds rows) (hperm : rows'.Perm rows) : DistinctIds rows' :=
  (hperm.filterMap rowIdentity).nodup_iff.mpr h

/-- Rows of one identity are one row. -/
theorem DistinctIds.eq (h : DistinctIds rows) {other : Row} {id : String} (hrow : row ∈ rows) (hother : other ∈ rows)
    (hid : rowIdentity row = some id) (hid' : rowIdentity other = some id) : row = other := by
  induction rows with
  | nil => cases hrow
  | cons head rest ih =>
    have hin : ∀ r ∈ rest, rowIdentity r = some id → id ∈ rest.filterMap rowIdentity := fun r hr hr' =>
      List.mem_filterMap.mpr ⟨r, hr, hr'⟩
    have hrest : DistinctIds rest := by
      rw [DistinctIds, List.filterMap_cons] at h
      split at h
      · exact h
      · exact (List.nodup_cons.mp h).2
    have hfresh : rowIdentity head = some id → id ∉ rest.filterMap rowIdentity := by
      intro hhead
      rw [DistinctIds, List.filterMap_cons_some hhead] at h
      exact (List.nodup_cons.mp h).1
    obtain rfl | hrow' := List.mem_cons.mp hrow
    · obtain rfl | hother' := List.mem_cons.mp hother
      · rfl
      · exact absurd (hin other hother' hid') (hfresh hid)
    · obtain rfl | hother' := List.mem_cons.mp hother
      · exact absurd (hin row hrow' hid) (hfresh hid')
      · exact ih hrest hrow' hother'

theorem lookup_identity {α : Type} (h : DistinctIds rows) (value : Row → α) {id : String} (hrow : row ∈ rows)
    (hid : rowIdentity row = some id) :
    (collect (fun row => (rowIdentity row).toList) value rows).lookup id = some (value row) := by
  rw [lookup_collect, find?_unique hrow, Option.map_some]
  · rw [hid]
    exact decide_eq_true List.mem_cons_self
  · intro other hother hmem
    have hid' : rowIdentity other = some id := Option.mem_toList.mp (of_decide_eq_true hmem)
    exact h.eq hother hrow hid' hid

theorem lookup_identity_none {α : Type} (value : Row → α) {id : String} (h : ∀ row ∈ rows, rowIdentity row ≠ some id) :
    (collect (fun row => (rowIdentity row).toList) value rows).lookup id = none := by
  rw [lookup_collect, List.find?_eq_none.mpr]
  · rfl
  · intro row hrow hmem
    exact h row hrow (Option.mem_toList.mp (of_decide_eq_true hmem))

/-- The row that is found for a claim. -/
def found (rows : List Row) (row : Row) : Option Row :=
  (supersessionTarget row).bind fun target => rows.find? fun c => target ∈ aliasesOf c

theorem predecessorOf_eq (row : Row) : predecessorOf row (aliasTable rows) = found rows row := by
  rw [predecessorOf, found]
  congr 1
  funext target
  rw [aliasTable, lookup_collect, Option.map_id]
  rfl

theorem found_mem (h : found rows row = some c) : c ∈ rows := by
  obtain ⟨target, -, hfind⟩ := Option.bind_eq_some_iff.mp h
  exact List.mem_of_find?_eq_some hfind

theorem ownTable_eq (h : DistinctIds rows) (hrow : row ∈ rows) :
    (rowIdentity row).bind (ownTable toLowerCase rows).lookup = (rowIdentity row).map fun _ =>
      ownReport toLowerCase rows row := by
  cases hid : rowIdentity row with
  | none => rfl
  | some id => exact lookup_identity h (ownReport toLowerCase rows) hrow hid

/-- What is shown: what the claimed row passes on, else the own report. -/
theorem surfaceReport_standing (mine : Report) (pred : Option Report) : (surfaceReport mine pred).toReport.standing
      = (passed mine.standing (pred.map Report.standing)).getD mine.standing := by
  have hstatus : ∀ r : Report, r.standing.status = r.status := fun _ => rfl
  rw [surfaceReport.eq_def, passed.eq_def, hstatus]
  cases mine.status with
  | forked => cases pred <;> rfl
  | none | linear =>
    cases pred with
    | none => rfl
    | some pred =>
      dsimp only [Option.map_some]
      rw [hstatus]
      split <;> rfl

/-- **SHOWN**: a row shows what the row found for its claim passes on, else its own report. -/
theorem shownFor_eq (h : DistinctIds rows) {id : String} (hrow : row ∈ rows) (hid : rowIdentity row = some id) :
    shownFor toLowerCase rows id
      = some ((passed (own toLowerCase rows row) ((found rows row).bind (standingOf toLowerCase rows))).getD
          (own toLowerCase rows row)) := by
  have hpred : ((found rows row).bind fun c => (rowIdentity c).bind
    (ownTable toLowerCase rows).lookup).map Report.standing
      = (found rows row).bind (standingOf toLowerCase rows) := by
    cases hfound : found rows row with
    | none => rfl
    | some c =>
      rw [Option.bind_some, Option.bind_some, ownTable_eq h (found_mem hfound), Option.map_map]
      rfl
  rw [shownFor, indexSupersession, lookup_identity h _ hrow hid, Option.map_some, surfaceReport_standing,
    predecessorOf_eq, hpred]
  dsimp only
  rw [ownTable_eq h hrow, hid]
  rfl

theorem shownFor_none {id : String} (h : ∀ row ∈ rows, rowIdentity row ≠ some id) :
    shownFor toLowerCase rows id = none := by
  rw [shownFor, indexSupersession, lookup_identity_none _ h]
  rfl

theorem shownFor_some {id : String} (h : shownFor toLowerCase rows id = some r) :
    ∃ row ∈ rows, rowIdentity row = some id := by
  by_contra hno
  rw [shownFor_none fun row hrow hid => hno ⟨row, hrow, hid⟩] at h
  cases h

/-- What is passed on has another status, so it is seen. -/
theorem passed_status (h : passed mine pred = some r) :
    r.status ≠ mine.status ∧ pred = some r ∧ mine.status ≠ .forked := by
  unfold passed at h
  split at h
  · rename_i pred hmine
    obtain ⟨hpred, hr⟩ := Option.ite_none_right_eq_some.mp h
    rw [hmine, ← Option.some.inj hr, hpred]
    exact ⟨nofun, rfl, nofun⟩
  · rename_i pred hmine
    obtain ⟨hpred, hr⟩ := Option.ite_none_left_eq_some.mp h
    rw [hmine, ← Option.some.inj hr]
    exact ⟨hpred, rfl, nofun⟩
  · cases h

theorem passed_inj {pred' : Option Standing} (h : (passed mine pred).getD mine = (passed mine pred').getD mine) :
    passed mine pred = passed mine pred' := by
  cases hp : passed mine pred with
  | none =>
    cases hp' : passed mine pred' with
    | none => rfl
    | some r =>
      rw [hp, hp'] at h
      exact absurd (congrArg Standing.status h).symm (passed_status hp').1
  | some r =>
    cases hp' : passed mine pred' with
    | none =>
      rw [hp, hp'] at h
      exact absurd (congrArg Standing.status h) (passed_status hp).1
    | some r' =>
      rw [hp, hp'] at h
      exact congrArg some h

theorem passed_forked (hr : r.status = .forked) (hmine : mine.status ≠ .forked) : passed mine (some r) = some r := by
  unfold passed
  cases hstatus : mine.status with
  | none => exact if_neg (by rw [hr]; exact nofun)
  | linear => exact if_pos hr
  | forked => exact absurd hstatus hmine

/-! ## Order -/

theorem standingOf_perm (hperm : rows'.Perm rows) (row : Row) :
    standingOf toLowerCase rows' row = standingOf toLowerCase rows row := by
  rw [standingOf, standingOf, own_perm hperm]

theorem passed_none (mine : Standing) : passed mine none = none := by
  rw [passed.eq_def]
  cases mine.status <;> rfl

theorem passed_found (row : Row) :
    passed (own toLowerCase rows row) ((found rows row).bind (standingOf toLowerCase rows))
      = ((found rows row).map fun c => passed (own toLowerCase rows row)
        (standingOf toLowerCase rows c)).getD none := by
  cases found rows row with
  | none => exact passed_none _
  | some c => rfl

/-- Where the carriers of a claimed name agree, the order is not seen. -/
theorem shownFor_perm (h : DistinctIds rows) (hun : Unambiguous toLowerCase rows) (hperm : rows'.Perm rows)
    (id : String) : shownFor toLowerCase rows' id = shownFor toLowerCase rows id := by
  by_cases hex : ∃ row ∈ rows, rowIdentity row = some id
  · obtain ⟨row, hrow, hid⟩ := hex
    have hfound : ((found rows' row).map fun c => passed (own toLowerCase rows row) (standingOf toLowerCase rows c))
        = (found rows row).map fun c => passed (own toLowerCase rows row) (standingOf toLowerCase rows c) := by
      rw [found, found]
      cases htarget : supersessionTarget row with
      | none => rfl
      | some target =>
        refine find?_perm hperm fun c hc d hd hcarries hcarries' => ?_
        exact hun row hrow (by rw [hid]; exact nofun) target htarget c hc d hd (of_decide_eq_true hcarries)
          (of_decide_eq_true hcarries')
    have hstanding : standingOf toLowerCase rows' = standingOf toLowerCase rows := funext (standingOf_perm hperm)
    rw [shownFor_eq (h.perm hperm) (hperm.symm.subset hrow) hid, shownFor_eq h hrow hid, passed_found, passed_found,
      own_perm hperm, hstanding, hfound]
  · have hno : ∀ row ∈ rows, rowIdentity row ≠ some id := fun row hrow hid => hex ⟨row, hrow, hid⟩
    rw [shownFor_none hno, shownFor_none fun row hrow => hno row (hperm.subset hrow)]

theorem exists_order (h : DistinctIds rows) {id target : String} (hrow : row ∈ rows) (hid : rowIdentity row = some id)
    (htarget : supersessionTarget row = some target) (hc : c ∈ rows) (hcarries : target ∈ aliasesOf c) :
    ∃ rows' : List Row, rows'.Perm rows ∧ shownFor toLowerCase rows' id
      = some ((passed (own toLowerCase rows row) (standingOf toLowerCase rows c)).getD (own toLowerCase rows row)) := by
  obtain ⟨rows', hperm, hfind⟩ := exists_perm_first hc (p := fun c => decide (target ∈ aliasesOf c))
    (decide_eq_true hcarries)
  refine ⟨rows', hperm, ?_⟩
  have hfound : found rows' row = some c := by
    rw [found, htarget]
    exact hfind
  rw [shownFor_eq (h.perm hperm) (hperm.symm.subset hrow) hid, hfound, Option.bind_some, own_perm hperm,
    standingOf_perm hperm]

theorem unambiguous_of_order (h : DistinctIds rows)
    (horder : ∀ rows' : List Row, rows'.Perm rows → ∀ id, shownFor toLowerCase rows' id
      = shownFor toLowerCase rows id) :
    Unambiguous toLowerCase rows := by
  intro row hrow hsome target htarget c hc d hd hcarries hcarries'
  obtain ⟨id, hid⟩ := Option.ne_none_iff_exists'.mp hsome
  obtain ⟨first, hperm, hfirst⟩ := exists_order h hrow hid htarget hc hcarries
  obtain ⟨second, hperm', hsecond⟩ := exists_order h hrow hid htarget hd hcarries'
  rw [horder first hperm id] at hfirst
  rw [horder second hperm' id, hfirst] at hsecond
  exact passed_inj (Option.some.inj hsecond)

/-! ## Forks -/

theorem shownFor_own_forked (h : DistinctIds rows) {id : String} (hrow : row ∈ rows) (hid : rowIdentity row = some id)
    (hforked : (own toLowerCase rows row).status = .forked) :
    shownFor toLowerCase rows id = some (own toLowerCase rows row) := by
  have hnone : ∀ pred, passed (own toLowerCase rows row) pred = none := by
    intro pred
    rw [Option.eq_none_iff_forall_ne_some]
    intro r hr
    exact (passed_status hr).2.2 hforked
  rw [shownFor_eq h hrow hid, hnone]
  rfl

/-- No claimant of a fork is shown with a successor, where the carriers agree. -/
theorem held_of_unambiguous (h : DistinctIds rows) (hun : Unambiguous toLowerCase rows) {claimant : Row} {id : String}
    (hsubject : subject ∈ rows) (hsid : rowIdentity subject ≠ none)
    (hmany : 2 ≤ (matching toLowerCase rows subject).length) (hclaim : claimant ∈ claimantsOf subject rows)
    (hid : rowIdentity claimant = some id) (hr : shownFor toLowerCase rows id = some r) : r.authoritative = none := by
  obtain ⟨hrow, hcond⟩ := List.mem_filter.mp hclaim
  obtain ⟨target, htarget, hcarries⟩ := (Option.any_eq_true _ _).mp (Bool.and_eq_true_iff.mp hcond).2
  by_cases hmine : (own toLowerCase rows claimant).status = .forked
  · rw [shownFor_own_forked h hrow hid hmine] at hr
    rw [← Option.some.inj hr]
    exact own_forked_authoritative hmine
  · have hforked := own_forked hmany
    obtain ⟨sid, hsid'⟩ := Option.ne_none_iff_exists'.mp hsid
    have hstanding : standingOf toLowerCase rows subject = some (own toLowerCase rows subject) := by
      rw [standingOf, hsid', Option.map_some]
    have hpasses : ∀ c ∈ rows, target ∈ aliasesOf c →
        passed (own toLowerCase rows claimant) (standingOf toLowerCase rows c)
          = some (own toLowerCase rows subject) := by
      intro c hc hc'
      rw [hun claimant hrow (by rw [hid]; exact nofun) target htarget c hc subject hsubject hc'
        (of_decide_eq_true hcarries), hstanding, passed_forked hforked hmine]
    have hfind : ∃ c, found rows claimant = some c ∧ target ∈ aliasesOf c := by
      rw [found, htarget, Option.bind_some]
      cases hfound : rows.find? fun c => decide (target ∈ aliasesOf c) with
      | none => exact absurd hcarries (List.find?_eq_none.mp hfound subject hsubject)
      | some c =>
        exact ⟨c, rfl, of_decide_eq_true (List.find?_some (p := fun c => decide (target ∈ aliasesOf c)) hfound)⟩
    obtain ⟨c, hfound, hc⟩ := hfind
    rw [shownFor_eq h hrow hid, hfound, Option.bind_some, hpasses c (found_mem hfound) hc] at hr
    rw [← Option.some.inj hr]
    exact own_forked_authoritative hforked

/-! ## The summary -/

/-- The forks are those of the rows whose identity is new. -/
theorem tally_forks (toLowerCase : String → String) (all : List Row) (tally : Tally) (rest : List Row)
    (hfresh : (tally.seen ++ rest.filterMap rowIdentity).Nodup) :
    (rest.foldl (tallyRow toLowerCase all) tally).forks ≠ []
      ↔ tally.forks ≠ [] ∨ ∃ row ∈ rest, rowIdentity row ≠ none ∧ (own toLowerCase all row).status = .forked := by
  induction rest generalizing tally with
  | nil => exact (or_iff_left fun ⟨_, hrow, _⟩ => nomatch hrow).symm
  | cons row rest ih =>
    rw [List.foldl_cons]
    cases hid : rowIdentity row with
    | none =>
      have hstep : tallyRow toLowerCase all tally row = tally := by rw [tallyRow, hid]
      rw [List.filterMap_cons_none hid] at hfresh
      rw [hstep, ih tally hfresh, List.exists_mem_cons_iff, hid]
      exact or_congr_right (or_iff_right fun hrow => hrow.1 rfl).symm
    | some id =>
      rw [List.filterMap_cons_some hid] at hfresh
      have hnew : id ∉ tally.seen := fun hmem =>
        (List.nodup_append.mp hfresh).2.2 id hmem id List.mem_cons_self rfl
      have hnext : ((tally.seen ++ [id]) ++ rest.filterMap rowIdentity).Nodup := by
        rwa [List.append_assoc, List.singleton_append]
      have hforks : (tallyRow toLowerCase all tally row).seen = tally.seen ++ [id]
          ∧ ((tallyRow toLowerCase all tally row).forks ≠ []
            ↔ tally.forks ≠ [] ∨ (own toLowerCase all row).status = .forked) := by
        rw [tallyRow, hid]
        dsimp only
        rw [if_neg hnew]
        have hown : (own toLowerCase all row).status = (ownReport toLowerCase all row).status := rfl
        rw [hown]
        cases (ownReport toLowerCase all row).status with
        | none | linear => exact ⟨rfl, (or_iff_left nofun).symm⟩
        | forked => exact ⟨rfl, iff_of_true (List.append_ne_nil_of_right_ne_nil _ (List.cons_ne_nil _ _)) (.inr rfl)⟩
      rw [← hforks.1] at hnext
      rw [ih _ hnext, hforks.2, List.exists_mem_cons_iff, or_assoc, hid]
      exact or_congr_right (or_congr_left (and_iff_right nofun).symm)

/-- **SUMMARY**: a book is forked exactly when some row shows a fork. -/
theorem summary_forked_iff (h : DistinctIds rows) : (summarizeSupersession toLowerCase rows).status = .forked
      ↔ ∃ id r, shownFor toLowerCase rows id = some r ∧ r.status = .forked := by
  have htally := tally_forks toLowerCase rows ⟨[], [], false⟩ rows h
  have hstatus : (summarizeSupersession toLowerCase rows).status = .forked
      ↔ (rows.foldl (tallyRow toLowerCase rows) ⟨[], [], false⟩).forks ≠ [] := by
    rw [summarizeSupersession]
    dsimp only
    split
    · rename_i hforks
      exact iff_of_true rfl hforks
    · rename_i hforks
      refine iff_of_false ?_ hforks
      split <;> exact nofun
  rw [hstatus, htally]
  constructor
  · rintro (hnil | ⟨row, hrow, hsome, hforked⟩)
    · exact absurd rfl hnil
    · obtain ⟨id, hid⟩ := Option.ne_none_iff_exists'.mp hsome
      exact ⟨id, _, shownFor_own_forked h hrow hid hforked, hforked⟩
  · rintro ⟨id, r, hr, hforked⟩
    right
    obtain ⟨row, hrow, hid⟩ := shownFor_some hr
    rw [shownFor_eq h hrow hid, Option.some.injEq] at hr
    cases hpassed : passed (own toLowerCase rows row) ((found rows row).bind (standingOf toLowerCase rows)) with
    | none =>
      rw [hpassed, Option.getD_none] at hr
      refine ⟨row, hrow, by rw [hid]; exact nofun, ?_⟩
      rw [hr]
      exact hforked
    | some passedOn =>
      rw [hpassed, Option.getD_some] at hr
      obtain ⟨c, hfound, hc⟩ := Option.bind_eq_some_iff.mp (passed_status hpassed).2.1
      obtain ⟨cid, hcid, hown⟩ := Option.map_eq_some_iff.mp hc
      refine ⟨c, found_mem hfound, by rw [hcid]; exact nofun, ?_⟩
      rw [hown, hr]
      exact hforked

theorem unambiguous_of_single (h : ∀ row ∈ rows, ∀ target, supersessionTarget row = some target →
      ∀ c ∈ rows, ∀ d ∈ rows, target ∈ aliasesOf c → target ∈ aliasesOf d → c = d) : Unambiguous toLowerCase rows := by
  intro row hrow _ target htarget c hc d hd hcarries hcarries'
  rw [h row hrow target htarget c hc d hd hcarries hcarries']

end Tables

/-- **SETTLED**: a book of distinct rows is settled exactly when the rows that share a claimed
    name pass on the same, as they do where no two rows share one; forks are reported and
    summarized in every book. -/
theorem supersession_iff (toLowerCase : String → String) {rows : List Row} (h : DistinctIds rows) :
    (Settled toLowerCase rows ↔ Unambiguous toLowerCase rows)
    ∧ (∀ subject ∈ rows, ∀ id, rowIdentity subject = some id → 2 ≤ (matching toLowerCase rows subject).length →
      ∃ r, shownFor toLowerCase rows id = some r ∧ r.status = .forked ∧ r.authoritative = none)
    ∧ ((summarizeSupersession toLowerCase rows).status = .forked
      ↔ ∃ id r, shownFor toLowerCase rows id = some r ∧ r.status = .forked)
    ∧ ((∀ row ∈ rows, ∀ target, supersessionTarget row = some target →
        ∀ c ∈ rows, ∀ d ∈ rows, target ∈ aliasesOf c → target ∈ aliasesOf d → c = d) →
      Unambiguous toLowerCase rows) := by
  have hforks : ∀ subject ∈ rows, ∀ id, rowIdentity subject = some id → 2 ≤ (matching toLowerCase rows subject).length →
      ∃ r, shownFor toLowerCase rows id = some r ∧ r.status = .forked ∧ r.authoritative = none :=
    fun subject hsubject id hid hmany =>
      ⟨_, shownFor_own_forked h hsubject hid (own_forked hmany), own_forked hmany,
        own_forked_authoritative (own_forked hmany)⟩
  refine ⟨⟨fun hsettled => unambiguous_of_order h hsettled.order, fun hun => ?_⟩, hforks, summary_forked_iff h,
    unambiguous_of_single⟩
  exact {
    order := fun rows' hperm id => shownFor_perm h hun hperm id
    forks := hforks
    held := fun subject hsubject hsid hmany claimant hclaim id hid r hr =>
      held_of_unambiguous h hun hsubject hsid hmany hclaim hid hr
    summary := summary_forked_iff h }

def sampleRow (task_id payment_ref supersedes subject_handle : String) : Row where
  task_id := .string task_id
  payment_ref := .string payment_ref
  row_hash := .missing
  supersedes := .string supersedes
  corrects := .missing
  parent_ref := .missing
  act := .missing
  event := .missing
  evidence := .missing
  subject_handle := .string subject_handle
  subject_wallet := .missing
  payer := .missing
  seq := none
  authority := none
  book_chain := none

/-- A row and its two successors. -/
def sampleBook : List Row := [sampleRow "a" "p" "" "", sampleRow "c" "q" "p" "x", sampleRow "d" "r" "p" "y"]

theorem supersession_iff_sample : Settled id sampleBook := by
  have hdistinct : DistinctIds sampleBook := by
    rw [DistinctIds]
    decide +kernel
  refine (supersession_iff id hdistinct).1.mpr ((supersession_iff id hdistinct).2.2.2 ?_)
  have hcarriers : ∀ row ∈ sampleBook, ∀ target ∈ supersessionTarget row, ∀ c ∈ sampleBook, ∀ d ∈ sampleBook,
      target ∈ aliasesOf c → target ∈ aliasesOf d → c = d := by
    decide +kernel
  exact hcarriers

/-- A row that names nobody, a row of the same payment that names the subject of one claimant,
    and the two claimants of the payment. -/
def sharedBook : List Row :=
  [sampleRow "a" "p" "" "", sampleRow "b" "p" "" "x", sampleRow "c" "q" "p" "x", sampleRow "d" "r" "p" "y"]

/-- The same rows, the first two exchanged. -/
def exchangedBook : List Row :=
  [sampleRow "b" "p" "" "x", sampleRow "a" "p" "" "", sampleRow "c" "q" "p" "x", sampleRow "d" "r" "p" "y"]

/-- **ELECTED BY ORDER**: both claimants match the row that names nobody, and one of them is
    shown as authoritative when the other row of the payment comes first. -/
theorem supersession_by_order :
    DistinctIds sharedBook ∧ exchangedBook.Perm sharedBook ∧ ¬Settled id sharedBook ∧ ¬Settled id exchangedBook
    ∧ (matching id exchangedBook (sampleRow "a" "p" "" "")).length = 2
    ∧ ((indexSupersession id sharedBook).lookup "c").map (fun r => (r.status, r.authoritative)) = some (.forked, none)
    ∧ ((indexSupersession id exchangedBook).lookup "c").map (fun r => (r.status, r.authoritative))
      = some (.linear, some "c") := by
  have hdistinct : DistinctIds sharedBook := by
    rw [DistinctIds]
    decide +kernel
  have hperm : exchangedBook.Perm sharedBook := List.Perm.swap _ _ _
  have hshared : ((indexSupersession id sharedBook).lookup "c").map (fun r => (r.status, r.authoritative))
      = some (.forked, none) := by decide +kernel
  have hexchanged : ((indexSupersession id exchangedBook).lookup "c").map (fun r => (r.status, r.authoritative))
      = some (.linear, some "c") := by decide +kernel
  have hdiffer : shownFor id exchangedBook "c" ≠ shownFor id sharedBook "c" := by
    intro heq
    have hpairs := congrArg (Option.map fun r : Standing => (r.status, r.authoritative)) heq
    rw [shownFor, shownFor, Option.map_map, Option.map_map] at hpairs
    exact absurd (hexchanged.symm.trans (hpairs.trans hshared)) (by decide)
  exact ⟨hdistinct, hperm, fun hsettled => hdiffer (hsettled.order _ hperm "c"),
    fun hsettled => hdiffer (hsettled.order _ hperm.symm "c").symm, by decide +kernel, hshared, hexchanged⟩

end Supersession
