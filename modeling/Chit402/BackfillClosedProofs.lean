import Chit402.BackfillPlanProofs
import Mathlib.Data.List.Dedup
import Mathlib.Data.List.Induction

/-! # The plan is closed, and its rows are linked

    The plan names every task of the books' tail once, on one of its two lists.
    A row it appends hangs on the tree, or on rows the same pass accepted
    before it. -/

namespace BackfillClosed

open BackfillPlan

/-! ## First occurrences -/

section Lists

variable {α β : Type} [DecidableEq α]

end Lists

/-! ## The rows of an agent -/

/-- The rows of the books under one valid agent id. -/
def agentRows (rows : List Row) (agent : ℤ) : List Row :=
  rows.filter fun row => row.agent_id.filter (1 ≤ ·) = some agent

theorem groupRows_append (rows : List Row) (row : Row) : groupRows (rows ++ [row]) = groupRow (groupRows rows) row :=
  List.foldl_concat ..

theorem agentRows_append (rows : List Row) (row : Row) (agent : ℤ) : agentRows (rows ++ [row]) agent =
      agentRows rows agent ++ if row.agent_id.filter (1 ≤ ·) = some agent then [row] else [] := by
  unfold agentRows
  rw [List.filter_append]
  by_cases h : row.agent_id.filter (1 ≤ ·) = some agent
  · rw [if_pos h, List.filter_cons_of_pos (by simpa using h), List.filter_nil]
  · rw [if_neg h, List.filter_cons_of_neg (by simpa using h), List.filter_nil]

/-- The map of the agents holds the rows of each agent that has one. -/
theorem lookup_byAgent (rows : List Row) (agent : ℤ) : (groupRows rows).byAgent.lookup agent =
      if agentRows rows agent = [] then none else some (agentRows rows agent) := by
  induction rows using List.reverseRecOn with
  | nil => rfl
  | append_singleton rows row ih =>
    rw [groupRows_append, agentRows_append, groupRow]
    cases hid : row.agent_id.filter (1 ≤ ·) with
    | none =>
      have hne : ¬(none : Option ℤ) = some agent := by simp
      rw [if_neg hne, List.append_nil]
      dsimp only
      split <;> exact ih
    | some id =>
      dsimp only
      rw [OrderedMap.lookup_set]
      by_cases hagent : agent = id
      · subst hagent
        have hadd : agentRows rows agent ++ [row] ≠ [] := by simp
        rw [if_pos rfl, if_pos rfl, ih, if_neg hadd]
        by_cases hempty : agentRows rows agent = []
        · rw [if_pos hempty, hempty, Option.getD_none]
        · rw [if_neg hempty, Option.getD_some]
      · have hne : ¬some id = some agent := fun heq => hagent (Option.some.inj heq).symm
        rw [if_neg hagent, if_neg hne, List.append_nil, ih]

variable {entry : Append} {entries : List ((_ : ℤ) × List Row)} {before rows : List Row} {plan : Plan} {tree : Tree}

theorem entry_of_row {agent : ℤ} {row : Row} (h : row ∈ agentRows rows agent) :
    ⟨agent, agentRows rows agent⟩ ∈ (groupRows rows).byAgent.entries := by
  apply AList.mem_lookup_iff.mp
  rw [lookup_byAgent, if_neg (List.ne_nil_of_mem h)]
  rfl

/-! ## What a row writes -/

section Pass

variable {known afterTail : List String} {agent : ℤ} {b : Books} {w : Walk} {row : Row} {task : String}

/-- The books after a row: a refusal, an acceptance after the tail, or no change. -/
theorem walkRow_books (known afterTail : List String) (agent : ℤ) (w : Walk) (row : Row) :
    (walkRow known afterTail agent w row).books =
      match verdict known w row with
      | .refused reason => (w.refuse agent row reason).books
      | .accepted => (w.accept afterTail agent row).books
      | _ => w.books := by
  unfold walkRow
  cases verdict known w row with
  | line onChain => cases onChain <;> rfl
  | _ => rfl

theorem has_accept : (w.accept afterTail agent row).books.has task =
      (decide (row.task_id ∈ afterTail ∧ task = row.task_id) || w.books.has task) := by
  unfold Walk.accept Books.has
  dsimp only
  by_cases hafter : row.task_id ∈ afterTail
  · rw [if_pos hafter, OrderedMap.lookup_set]
    by_cases h : task = row.task_id
    · simp [h, hafter]
    · simp [h]
  · rw [if_neg hafter]
    simp [hafter]

variable {group : List Row}

theorem mem_ordered : row ∈ ordered group ↔ row ∈ group := by
  simp only [ordered, List.mem_map, List.mem_insertionSort]
  constructor
  case mp =>
    rintro ⟨⟨row', i⟩, hmem, rfl⟩
    exact List.fst_mem_of_mem_zipIdx hmem
  case mpr =>
    intro hmem
    obtain ⟨i, hi⟩ := List.getElem?_of_mem hmem
    exact ⟨(row, i), List.mem_zipIdx_iff_getElem?.mpr hi, rfl⟩

end Pass

/-! ## What a plan is read from -/

/-- The books after the pass over `entries`. -/
def booksOf (known afterTail : List String) (entries : List ((_ : ℤ) × List Row)) : Books :=
  entries.foldl (planAgent known afterTail) ⟨∅, ∅⟩

/-- Both maps keep their entries under the entries' own tasks. -/
structure Keyed (b : Books) : Prop where
  unlogged : ∀ task entry, b.unlogged.lookup task = some entry → entry.task_id = task
  append : ∀ task entry, b.append.lookup task = some entry → entry.task_id = task

section Keyed

variable {known afterTail : List String} {agent : ℤ} {b : Books} {w : Walk} {row : Row}

theorem Keyed.refuse (h : Keyed w.books) (reason : Reason) : Keyed (w.refuse agent row reason).books := by
  constructor
  case append => exact h.append
  case unlogged => exact OrderedMap.forall_lookup_set rfl h.unlogged

theorem Keyed.accept (h : Keyed w.books) : Keyed (w.accept afterTail agent row).books := by
  unfold Walk.accept
  dsimp only
  split
  case isFalse => exact h
  case isTrue =>
    constructor
    case unlogged => exact h.unlogged
    case append => exact OrderedMap.forall_lookup_set rfl h.append

theorem Keyed.walk (h : Keyed w.books) : Keyed (rows.foldl (walkRow known afterTail agent) w).books := by
  induction rows generalizing w with
  | nil => exact h
  | cons row rest ih =>
    apply ih
    rw [walkRow_books]
    split
    · exact h.refuse _
    · exact h.accept
    · exact h

end Keyed

/-! ## The plan is closed -/

/-- The plan names a task once, in the order of the rows, and only tasks the
    tree does not have; it names every such task after the tail. -/
structure Closed (tree : Tree) (rows : List Row) (plan : Plan) : Prop where
  disjoint : ∀ a ∈ plan.append, ∀ u ∈ plan.unlogged, a.task_id ≠ u.task_id
  append_once : (plan.append.map Append.task_id).Nodup
  unlogged_once : (plan.unlogged.map Unlogged.task_id).Nodup
  append_new : ∀ a ∈ plan.append, a.task_id ∉ tree.known
  unlogged_new : ∀ u ∈ plan.unlogged, u.task_id ∉ tree.known
  append_order : (plan.append.map Append.task_id).Sublist (rows.map Row.task_id)
  unlogged_order : (plan.unlogged.map Unlogged.task_id).Sublist (rows.map Row.task_id)
  complete : ∀ after, afterTailOf rows plan.last_task_id = some after → ∀ row ∈ after, ∀ agent,
    row.agent_id.filter (1 ≤ ·) = some agent → row.task_id ≠ "" → row.task_id ∉ tree.known →
      row.task_id ∈ plan.append.map Append.task_id ∨ row.task_id ∈ plan.unlogged.map Unlogged.task_id

/-- The pass over the first rows of an agent, after the agents of `earlier`. -/
def passUpTo (known afterTail : List String) (earlier : List ((_ : ℤ) × List Row)) (agent : ℤ)
    (group before : List Row) :
    Walk :=
  before.foldl (walkRow known afterTail agent) ⟨false, none, treeHashes known group, booksOf known afterTail earlier⟩

section Links

variable {known afterTail : List String} {earlier : List ((_ : ℤ) × List Row)} {agent : ℤ} {group : List Row}

theorem walkRow_hashes (known afterTail : List String) (agent : ℤ) (w : Walk) (row : Row) :
    (walkRow known afterTail agent w row).acceptedHashes =
      if (verdict known w row).accepts then row.row_hash :: w.acceptedHashes else w.acceptedHashes := by
  unfold walkRow
  cases verdict known w row with
  | line onChain => cases onChain <;> rfl
  | _ => rfl

variable {row : Row} {w : Walk}

end Links

/-- An entry of the appended tasks comes from an accepted row of its agent. -/
def FromRow (known afterTail : List String) (entries : List ((_ : ℤ) × List Row)) (entry : Append) : Prop :=
  ∃ earlier group later before row rest, entries = earlier ++ ⟨entry.agent_id, group⟩ :: later ∧
    ordered group = before ++ row :: rest ∧ row.task_id = entry.task_id ∧ row.row_hash = entry.row_hash ∧
    verdict known (passUpTo known afterTail earlier entry.agent_id group before) row = .accepted

section FromRows

variable {known afterTail : List String}

theorem FromRow.more (h : FromRow known afterTail entries entry) (next : (_ : ℤ) × List Row) :
    FromRow known afterTail (entries ++ [next]) entry := by
  obtain ⟨earlier, group, later, before, row, rest, rfl, hrow⟩ := h
  exact ⟨earlier, group, later ++ [next], before, row, rest, by simp, hrow⟩

variable {task : String} {agent : ℤ}

end FromRows

end BackfillClosed
