import Chit402.OrderedMapProofs
import Mathlib.Data.List.Sort

/-! # Planning a receipt backfill

    The rows of the books after the tail of the first epoch are sorted into
    leaves to append and tasks to leave unlogged.  The rows of an agent are a
    chain of hashes: one pass in seq order accepts a row when its parent is in
    the tree or was accepted, and an agent whose chain forks is left out whole. -/

namespace BackfillPlan

/-- What `Number(row.seq)` gives: nothing to read, an integer, or anything else. -/
inductive SeqField where
  | missing
  | number (n : ℤ)
  | other
deriving DecidableEq

/-- A row of the books.  A text that is null or absent is empty; `agent_id` is
    `none` where `Number(row.agent_id)` is no integer. -/
structure Row where
  agent_id : Option ℤ
  task_id : String
  seq : SeqField
  prev_hash : String
  row_hash : String
deriving DecidableEq

def Row.position (row : Row) : Option ℕ :=
  match row.seq with
  | .number n => if 0 < n then some n.toNat else none
  | _ => none

/-- `prevHashOf` -/
def Row.prev (row : Row) : Option String := if row.prev_hash = "" then none else some row.prev_hash

/-- `hasStoredRowHash` -/
def Row.stored (row : Row) : Bool := row.row_hash ≠ ""

/-- `[...new Set(list)]` -/
def firsts {α : Type} [DecidableEq α] (l : List α) : List α := l.reverse.dedup.reverse

/-! ## The chain of an agent -/

structure Mismatch where
  seq : ℕ
  expected : Option String
  actual : Option String
deriving DecidableEq

/-- The maps `analyzeSeq` fills. -/
structure Scan where
  bySeq : OrderedMap ℕ Row
  duplicates : List ℕ
  seenPrev : OrderedMap String (List Row)

/-- The first row of a seq keeps it, another one is a duplicate. -/
def Scan.keep (s : Scan) (n : ℕ) (row : Row) : Scan :=
  match s.bySeq.lookup n with
  | some _ => { s with duplicates := if n ∈ s.duplicates then s.duplicates else s.duplicates ++ [n] }
  | none => { s with bySeq := OrderedMap.set s.bySeq n row }

def Scan.note (s : Scan) (row : Row) : Scan :=
  match row.prev with
  | none => s
  | some prev =>
    { s with seenPrev := OrderedMap.set s.seenPrev prev ((s.seenPrev.lookup prev).getD [] ++ [row]) }

def scanRow (s : Scan) (row : Row) : Scan :=
  match row.position with
  | none => s
  | some n => (s.keep n row).note row

def scanRows (rows : List Row) : Scan := rows.foldl scanRow ⟨∅, [], ∅⟩

/-- The numbers the sorted seqs leave out. -/
def gapsFrom (expected : ℕ) : List ℕ → List ℕ
  | [] => []
  | seq :: rest =>
    List.range' expected (seq - expected) ++ gapsFrom (if expected ≤ seq then seq + 1 else expected) rest

/-- A row whose prev is not the hash of the row before it. -/
def mismatchAt (bySeq : OrderedMap ℕ Row) (first : Option ℕ) (seq : ℕ) : Option Mismatch :=
  match bySeq.lookup seq with
  | none => none
  | some row =>
    let actual := row.prev
    if first = some seq ∧ seq = 1 then
      if actual.isSome then some ⟨seq, none, actual⟩ else none
    else
      let parent := bySeq.lookup (seq - 1)
      let expected := (parent.map Row.row_hash).filter (· ≠ "")
      if parent.isNone ∨ actual ≠ expected then some ⟨seq, expected, actual⟩ else none

structure Analysis where
  gaps : List ℕ
  duplicates : List ℕ
  prev_hash_mismatches : List Mismatch
  shared_prev : List (String × List ℕ)
deriving DecidableEq

/-- `analyzeSeq` -/
def analyzeSeq (rows : List Row) : Analysis :=
  let s := scanRows rows
  let unique := s.bySeq.keys.insertionSort (· ≤ ·)
  { gaps := gapsFrom 1 unique
    duplicates := s.duplicates
    prev_hash_mismatches := unique.filterMap (mismatchAt s.bySeq unique.head?)
    shared_prev := s.seenPrev.entries.filterMap fun e =>
      let ids := firsts (e.2.filterMap Row.position)
      if 1 < ids.length then some (e.1, ids) else none }

def Analysis.forked (a : Analysis) : Bool :=
  !a.duplicates.isEmpty || !a.prev_hash_mismatches.isEmpty || !a.shared_prev.isEmpty

inductive Status where
  | ok | forked | gapped
deriving DecidableEq

def Analysis.status (a : Analysis) : Status :=
  if a.forked then .forked else if !a.gaps.isEmpty then .gapped else .ok

/-- `isRealFork`: a parent with no stored hash is not a fork. -/
def isRealFork (analysis : Analysis) (group : List Row) : Bool :=
  if !analysis.duplicates.isEmpty then true
  else if !analysis.shared_prev.isEmpty then true
  else analysis.prev_hash_mismatches.any fun mismatch =>
    mismatch.seq = 1 || ((group.find? fun row => row.position = some (mismatch.seq - 1)).any Row.stored)

/-! ## The pass over one agent -/

inductive Reason where
  | forked | missing_row_hash | depends_on_refused
deriving DecidableEq

structure Unlogged where
  task_id : String
  agent_id : ℤ
  reason : Reason
deriving DecidableEq

structure Append where
  task_id : String
  agent_id : ℤ
  row_hash : String
deriving DecidableEq

/-- `unloggedByTask` and `appendByTask`. -/
structure Books where
  unlogged : OrderedMap String Unlogged
  append : OrderedMap String Append

/-- Whether a task has been planned. -/
def Books.has (b : Books) (task : String) : Bool := (b.unlogged.lookup task).isSome || (b.append.lookup task).isSome

/-- The marks of a forked agent's rows. -/
def markForked (known : List String) (agentId : ℤ) (b : Books) (row : Row) : Books :=
  if row.task_id = "" then b
  else if row.task_id ∈ known ∨ (b.unlogged.lookup row.task_id).isSome then b
  else { b with unlogged := OrderedMap.set b.unlogged row.task_id ⟨row.task_id, agentId, .forked⟩ }

/-- The state of the pass in seq order. -/
structure Walk where
  tainted : Bool
  prevSeq : Option ℕ
  acceptedHashes : List String
  books : Books

/-- `leadingGap || seqGap` -/
def Walk.gapAt (w : Walk) (row : Row) : Bool :=
  match row.position, w.prevSeq with
  | some seq, some prevSeq => prevSeq + 1 < seq
  | some seq, none => 1 < seq
  | none, _ => false

def Walk.prevNotAccepted (w : Walk) (row : Row) : Bool := row.prev.any fun prev => prev ∉ w.acceptedHashes

def Walk.advance (w : Walk) (row : Row) : Walk := { w with prevSeq := row.position <|> w.prevSeq }

def Walk.refuse (w : Walk) (agentId : ℤ) (row : Row) (reason : Reason) : Walk :=
  { w with
    tainted := true
    books := { w.books with
      unlogged := OrderedMap.set w.books.unlogged row.task_id ⟨row.task_id, agentId, reason⟩ } }

def Walk.accept (w : Walk) (afterTail : List String) (agentId : ℤ) (row : Row) : Walk :=
  { w with
    tainted := false
    acceptedHashes := row.row_hash :: w.acceptedHashes
    books :=
      if row.task_id ∈ afterTail then
        { w.books with append := OrderedMap.set w.books.append row.task_id ⟨row.task_id, agentId, row.row_hash⟩ }
      else w.books }

/-- What the loop makes of a row: a leaf of the tree, in order or not; a line
    with no task, on the chain or off it; a task that is planned already; a row
    to refuse; a row to accept. -/
inductive Verdict where
  | leaf (broken : Bool)
  | line (onChain : Bool)
  | repeated
  | refused (reason : Reason)
  | accepted
deriving DecidableEq

/-- The verdict adds the row's hash to the accepted ones. -/
def Verdict.accepts : Verdict → Bool
  | .line onChain => onChain
  | .accepted => true
  | _ => false

def Verdict.refuses : Verdict → Bool
  | .refused _ => true
  | _ => false

/-- The conditions of the loop, in their order. -/
def verdict (known : List String) (w : Walk) (row : Row) : Verdict :=
  if row.task_id ≠ "" ∧ row.task_id ∈ known then .leaf (w.gapAt row || !row.stored || w.prevNotAccepted row)
  else if row.task_id = "" then .line !(w.tainted || w.gapAt row || w.prevNotAccepted row || !row.stored)
  else if w.books.has row.task_id then .repeated
  else if !row.stored then .refused .missing_row_hash
  else if w.tainted || w.gapAt row || w.prevNotAccepted row || (row.prev.isNone && row.position.any (1 < ·)) then
    .refused .depends_on_refused
  else .accepted

/-- The body of the loop. -/
def walkRow (known afterTail : List String) (agentId : ℤ) (w : Walk) (row : Row) : Walk :=
  (match verdict known w row with
    | .leaf broken => { w with tainted := w.tainted || broken }
    | .line true => { w with acceptedHashes := row.row_hash :: w.acceptedHashes }
    | .line false => { w with tainted := true }
    | .repeated => w
    | .refused reason => w.refuse agentId row reason
    | .accepted => w.accept afterTail agentId row).advance row

/-- The comparison of `indexed.sort`: rows with a seq by seq, the others after
    them, and ties by their place in the books. -/
def sortsBefore (a b : Row × ℕ) : Bool :=
  match a.1.position, b.1.position with
  | some sa, some sb => if sa ≠ sb then sa < sb else a.2 ≤ b.2
  | some _, none => true
  | none, some _ => false
  | none, none => a.2 ≤ b.2

/-- The rows of an agent in seq order. -/
def ordered (group : List Row) : List Row := (group.zipIdx.insertionSort fun a b => sortsBefore a b).map Prod.fst

/-- The hashes of the agent's rows that are in the tree. -/
def treeHashes (known : List String) (group : List Row) : List String :=
  (group.filter fun row => row.task_id ≠ "" && row.task_id ∈ known && row.stored).map Row.row_hash

/-- The pass over an agent that does not fork. -/
def walkAgent (known afterTail : List String) (b : Books) (agentId : ℤ) (group : List Row) : Walk :=
  (ordered group).foldl (walkRow known afterTail agentId) ⟨false, none, treeHashes known group, b⟩

/-- The body of the loop over the agents. -/
def planAgent (known afterTail : List String) (b : Books) (entry : (_ : ℤ) × List Row) : Books :=
  if isRealFork (analyzeSeq entry.2) entry.2 then entry.2.foldl (markForked known entry.1) b
  else (walkAgent known afterTail b entry.1 entry.2).books

/-! ## The plan -/

structure Epoch where
  epoch : ℤ
  taskIds : List String

/-- The receipt tree: the task ids of its leaves, epoch by epoch. -/
structure Tree where
  epoch : ℤ
  taskIds : List String
  closedEpochs : List Epoch

/-- `known` -/
def Tree.known (tree : Tree) : List String :=
  (tree.closedEpochs.flatMap Epoch.taskIds ++ tree.taskIds).filter (· ≠ "")

inductive Refusal where
  | missing_agent_id (task_id : Option String)
  | forked (gaps duplicates : List ℕ)
  | gap (gaps duplicates : List ℕ)
deriving DecidableEq

structure Grouped where
  refusals : List Refusal
  byAgent : OrderedMap ℤ (List Row)
  unscoped : List Row

def groupRow (g : Grouped) (row : Row) : Grouped :=
  match row.agent_id.filter (1 ≤ ·) with
  | some id => { g with byAgent := OrderedMap.set g.byAgent id ((g.byAgent.lookup id).getD [] ++ [row]) }
  | none =>
    if row.task_id ≠ "" ∨ row.seq ≠ .missing then
      { g with
        unscoped := g.unscoped ++ [row]
        refusals := g.refusals ++ [.missing_agent_id (if row.task_id = "" then none else some row.task_id)] }
    else g

def groupRows (rows : List Row) : Grouped := rows.foldl groupRow ⟨[], ∅, []⟩

/-- The tasks of the rows after the first row of `last`. -/
def afterTailOf (rows : List Row) (last : String) : Option (List Row) :=
  (rows.findIdx? fun row => row.task_id = last).map fun start => rows.drop (start + 1)

structure Plan where
  last_task_id : String
  append : List Append
  unlogged : List Unlogged
deriving DecidableEq

end BackfillPlan
