import Chit402.BackfillClosedProofs
import Mathlib.Data.List.Range

/-! # Where an intact chain breaks

    The rows of an agent whose chain is intact come at seq 1, 2, 3, … and each
    names the hash of the one before it.  The pass follows such a chain up to
    the first row that names the hash of a row whose task was planned already:
    that row's hash was never taken up, and from there on every task is
    refused. -/

namespace BackfillChain

open BackfillPlan BackfillClosed

/-! ## What the scan of a chain finds -/

theorem scanRows_append (rows : List Row) (row : Row) : scanRows (rows ++ [row]) = scanRow (scanRows rows) row :=
  List.foldl_concat ..

@[simp] theorem note_bySeq (s : Scan) (row : Row) : (s.note row).bySeq = s.bySeq := by
  unfold Scan.note
  split <;> rfl

@[simp] theorem note_duplicates (s : Scan) (row : Row) : (s.note row).duplicates = s.duplicates := by
  unfold Scan.note
  split <;> rfl

theorem scanRow_bySeq (s : Scan) (row : Row) (n : ℕ) : (scanRow s row).bySeq.lookup n =
      if row.position = some n then (s.bySeq.lookup n).or (some row) else s.bySeq.lookup n := by
  unfold scanRow
  cases hposition : row.position with
  | none => rw [if_neg (by simp)]
  | some m =>
    dsimp only
    rw [note_bySeq, Scan.keep]
    cases hfound : s.bySeq.lookup m with
    | some first =>
      dsimp only
      split
      case isTrue h =>
        cases h
        rw [hfound]
        rfl
      case isFalse => rfl
    | none =>
      dsimp only
      rw [OrderedMap.lookup_set]
      by_cases hm : n = m
      · subst hm
        rw [if_pos rfl, if_pos rfl, hfound]
        rfl
      · rw [if_neg hm, if_neg fun h => hm (Option.some.inj h).symm]

theorem scanRows_bySeq (rows : List Row) (n : ℕ) :
    (scanRows rows).bySeq.lookup n = rows.find? fun row => row.position = some n := by
  induction rows using List.reverseRecOn with
  | nil => rfl
  | append_singleton rows row ih =>
    rw [scanRows_append, scanRow_bySeq, ih, List.find?_append]
    by_cases h : row.position = some n
    · rw [if_pos h, List.find?_cons_of_pos (by simpa using h)]
    · rw [if_neg h, List.find?_cons_of_neg (by simpa using h), List.find?_nil, Option.or_none]

theorem scanRow_duplicates {s : Scan} {row : Row} (h : (scanRow s row).duplicates = []) :
    s.duplicates = [] ∧ ∀ n, row.position = some n → s.bySeq.lookup n = none := by
  unfold scanRow at h
  cases hposition : row.position with
  | none =>
    rw [hposition] at h
    exact ⟨h, fun n hn => nomatch hn⟩
  | some m =>
    rw [hposition] at h
    dsimp only at h
    rw [note_duplicates, Scan.keep] at h
    cases hfound : s.bySeq.lookup m with
    | some first =>
      rw [hfound] at h
      dsimp only at h
      split at h
      case isTrue hmem =>
        rw [h] at hmem
        exact absurd hmem List.not_mem_nil
      case isFalse => exact absurd h (by simp)
    | none =>
      rw [hfound] at h
      refine ⟨h, fun n hn => ?_⟩
      cases hn
      exact hfound

/-- The seqs of the rows that have one. -/
def positions (rows : List Row) : List ℕ := rows.filterMap Row.position

variable {later : List ((_ : ℤ) × List Row)} {rows : List Row} {plan : Plan} {tree : Tree} {n : ℕ}

theorem find?_position_eq_none : (rows.find? fun row => row.position = some n) = none ↔ n ∉ positions rows := by
  rw [List.find?_eq_none, positions, List.mem_filterMap, not_exists]
  constructor
  · rintro h row ⟨hmem, hposition⟩
    exact h row hmem (by simpa using hposition)
  · intro h row hmem hposition
    exact h row ⟨hmem, by simpa using hposition⟩

theorem positions_nodup (h : (scanRows rows).duplicates = []) : (positions rows).Nodup := by
  induction rows using List.reverseRecOn with
  | nil => exact List.nodup_nil
  | append_singleton rows row ih =>
    rw [scanRows_append] at h
    obtain ⟨hrows, hrow⟩ := scanRow_duplicates h
    unfold positions at ih ⊢
    rw [List.filterMap_append]
    cases hposition : row.position with
    | none => simpa [hposition] using ih hrows
    | some n =>
      have hnot : n ∉ positions rows := by
        rw [← find?_position_eq_none, ← scanRows_bySeq]
        exact hrow n hposition
      rw [List.filterMap_cons_some hposition, List.filterMap_nil]
      exact (ih hrows).append (List.nodup_singleton n) fun m hm hm' => by
        rw [List.mem_singleton] at hm'
        exact hnot (hm' ▸ hm)

theorem mem_bySeq : n ∈ (scanRows rows).bySeq.keys ↔ n ∈ positions rows := by
  have hlookup := scanRows_bySeq rows n
  constructor
  case mp =>
    intro h
    by_contra hnot
    rw [find?_position_eq_none.mpr hnot] at hlookup
    exact AList.lookup_eq_none.mp hlookup h
  case mpr =>
    intro h
    by_contra hnot
    rw [AList.lookup_eq_none.mpr hnot] at hlookup
    exact find?_position_eq_none.mp hlookup.symm h

/-- The agent's rows form an intact chain: the analysis finds nothing, and every
    row has a hash. -/
def Intact (group : List Row) : Prop := (analyzeSeq group).status = .ok ∧ ∀ row ∈ group, row.stored = true

structure Clean (analysis : Analysis) : Prop where
  gaps : analysis.gaps = []
  duplicates : analysis.duplicates = []
  mismatches : analysis.prev_hash_mismatches = []
  shared : analysis.shared_prev = []

theorem clean_of_ok {analysis : Analysis} (h : analysis.status = .ok) : Clean analysis := by
  unfold Analysis.status at h
  split at h
  · cases h
  rename_i hforked
  split at h
  · cases h
  rename_i hgaps
  simp only [Analysis.forked, Bool.or_eq_true, Bool.not_eq_true', not_or, Bool.not_eq_false,
    List.isEmpty_iff] at hforked hgaps
  exact ⟨hgaps, hforked.1.1, hforked.1.2, hforked.2⟩

section Turn

variable {known afterTail : List String} {earlier : List ((_ : ℤ) × List Row)} {agent : ℤ} {group : List Row}

end Turn

theorem eq_of_position (h : (positions rows).Nodup) {a b : Row} {seq : ℕ} (ha : a ∈ rows) (hb : b ∈ rows)
    (hposition : a.position = some seq) (hposition' : b.position = some seq) : a = b := by
  induction rows with
  | nil => exact absurd ha List.not_mem_nil
  | cons row rest ih =>
    have hrest : ∀ {c : Row}, c ∈ rest → c.position = some seq → row.position ≠ some seq := by
      intro c hc hposition hrow
      rw [positions, List.filterMap_cons_some hrow, List.nodup_cons] at h
      exact h.1 (List.mem_filterMap.mpr ⟨c, hc, hposition⟩)
    have htail : (positions rest).Nodup := h.sublist ((List.sublist_cons_self _ _).filterMap _)
    rcases List.mem_cons.mp ha with rfl | hmemA
    · rcases List.mem_cons.mp hb with rfl | hmemB
      · rfl
      · exact absurd hposition (hrest hmemB hposition')
    · rcases List.mem_cons.mp hb with rfl | hmemB
      · exact absurd hposition' (hrest hmemA hposition)
      · exact ih htail hmemA hmemB

/-- In an intact chain only the first row names no parent. -/
theorem root_of_intact {group : List Row} (h : Intact group) {row : Row} (hmem : row ∈ group)
    (hnone : row.prev = none) :
    ∀ seq, row.position = some seq → seq ≤ 1 := by
  intro seq hposition
  by_contra hlarge
  obtain ⟨-, hduplicates, hmismatches, -⟩ := clean_of_ok h.1
  have hnodup := positions_nodup hduplicates
  have hmemSeq : seq ∈ (scanRows group).bySeq.keys.insertionSort (· ≤ ·) := by
    rw [List.mem_insertionSort, mem_bySeq]
    exact List.mem_filterMap.mpr ⟨row, hmem, hposition⟩
  have hno := List.filterMap_eq_nil_iff.mp hmismatches seq hmemSeq
  have hfound : (scanRows group).bySeq.lookup seq = some row := by
    rw [scanRows_bySeq]
    cases hfind : group.find? fun r => r.position = some seq with
    | none => exact absurd (List.mem_filterMap.mpr ⟨row, hmem, hposition⟩) (find?_position_eq_none.mp hfind)
    | some other =>
      have hother := List.find?_some hfind
      rw [decide_eq_true_eq] at hother
      rw [eq_of_position hnodup (List.mem_of_find?_eq_some hfind) hmem hother hposition]
  unfold mismatchAt at hno
  rw [hfound] at hno
  dsimp only at hno
  rw [if_neg (by omega), hnone] at hno
  cases hparent : (scanRows group).bySeq.lookup (seq - 1) with
  | none =>
    rw [hparent] at hno
    simp at hno
  | some parent =>
    have hstored : parent.stored = true := by
      rw [scanRows_bySeq] at hparent
      exact h.2 parent (List.mem_of_find?_eq_some hparent)
    have hhash : parent.row_hash ≠ "" := by simpa [Row.stored] using hstored
    rw [hparent] at hno
    simp [Option.filter, hhash] at hno

/-! ## The pass along an intact chain -/

/-- The row's task is planned when the pass comes to the row: before the agent's
    turn, or by an earlier row of the agent. -/
def Repeats (known afterTail : List String) (b : Books) (before : List Row) (row : Row) : Prop :=
  row.task_id ≠ "" ∧ row.task_id ∉ known ∧
    (b.has row.task_id = true ∨ row.task_id ∈ afterTail ∧ ∃ r ∈ before, r.task_id = row.task_id)

/-- The row names a hash that no row of the agent in the tree has, and that only
    rows with a planned task have before it. -/
def Dangles (known afterTail : List String) (b : Books) (group before : List Row) (row : Row) : Prop :=
  ¬Repeats known afterTail b before row ∧ ∃ hash, row.prev = some hash ∧ hash ∉ treeHashes known group ∧
    ∀ first r rest, before = first ++ r :: rest → r.row_hash = hash → Repeats known afterTail b first r

/-- The pass over `before` took up every row that repeats nothing. -/
structure Follows (known afterTail : List String) (b : Books) (group before : List Row) (w : Walk) : Prop where
  tainted : w.tainted = false
  has : ∀ task, task ≠ "" → task ∉ known →
    (w.books.has task = true ↔ b.has task = true ∨ task ∈ afterTail ∧ ∃ r ∈ before, r.task_id = task)
  unlogged : ∀ task, w.books.unlogged.lookup task = b.unlogged.lookup task
  taken : ∀ hash, hash ∈ w.acceptedHashes ↔ hash ∈ treeHashes known group ∨
    ∃ first r rest, before = first ++ r :: rest ∧ r.row_hash = hash ∧ r.task_id ∉ known.filter (· ≠ "") ∧
      ¬Repeats known afterTail b first r

/-- A split of a longer list is at its last entry or of the list before. -/
theorem split_concat {before first rest' : List Row} {row r : Row} (h : before ++ [row] = first ++ r :: rest') :
    (first = before ∧ r = row) ∨ ∃ rest'', before = first ++ r :: rest'' := by
  rcases List.eq_nil_or_concat rest' with rfl | ⟨rest'', last, rfl⟩
  · obtain ⟨rfl, hlast⟩ := List.append_inj' h rfl
    cases hlast
    exact Or.inl ⟨rfl, rfl⟩
  · rw [List.concat_eq_append, ← List.cons_append, ← List.append_assoc] at h
    exact Or.inr ⟨rest'', (List.append_inj' h rfl).1⟩

section Chain

variable {known afterTail : List String} {b : Books} {group before rest : List Row} {row : Row} {w : Walk}

theorem mem_treeHashes {hash : String} : hash ∈ treeHashes known group ↔
      ∃ r ∈ group, r.task_id ∈ known.filter (· ≠ "") ∧ r.stored = true ∧ r.row_hash = hash := by
  simp only [treeHashes, List.mem_map, List.mem_filter, Bool.and_eq_true, decide_eq_true_eq, ne_eq]
  constructor
  · rintro ⟨r, ⟨hmem, ⟨htask, hknown⟩, hstored⟩, rfl⟩
    exact ⟨r, hmem, ⟨hknown, htask⟩, hstored, rfl⟩
  · rintro ⟨r, hmem, ⟨hknown, htask⟩, hstored, rfl⟩
    exact ⟨r, ⟨hmem, ⟨htask, hknown⟩, hstored⟩, rfl⟩

theorem not_repeats_of_leaf (h : row.task_id ∈ known) : ¬Repeats known afterTail b before row :=
  fun hrepeats => hrepeats.2.1 h

theorem not_repeats_of_line (h : row.task_id = "") : ¬Repeats known afterTail b before row :=
  fun hrepeats => hrepeats.1 h

theorem Follows.repeats (hf : Follows known afterTail b group before w) (htask : row.task_id ≠ "")
    (hknown : row.task_id ∉ known) : w.books.has row.task_id = true ↔ Repeats known afterTail b before row := by
  rw [hf.has _ htask hknown]
  exact ⟨fun h => ⟨htask, hknown, h⟩, fun h => h.2.2⟩

/-- On an intact chain a row that repeats nothing dangles exactly when its
    parent was not taken up. -/
theorem Follows.prevNotAccepted (hf : Follows known afterTail b group before w) (hintact : Intact group)
    (horder : ordered group = before ++ row :: rest) (hrepeats : ¬Repeats known afterTail b before row) :
    w.prevNotAccepted row = true ↔ Dangles known afterTail b group before row := by
  unfold Walk.prevNotAccepted
  cases hprev : row.prev with
  | none =>
    rw [Option.any_none]
    exact ⟨fun h => absurd h Bool.false_ne_true, fun h => by
      obtain ⟨-, hash, hsome, -⟩ := h
      exact absurd (hprev.symm.trans hsome) (by simp)⟩
  | some hash =>
    rw [Option.any_some, decide_eq_true_eq, hf.taken, not_or]
    constructor
    case mp =>
      rintro ⟨htree, hno⟩
      refine ⟨hrepeats, hash, hprev, htree, fun first r rest' hsplit hhash => ?_⟩
      by_contra hnot
      refine hno ⟨first, r, rest', hsplit, hhash, fun hleaf => htree ?_, hnot⟩
      have hmem : r ∈ group := mem_ordered.mp (by rw [horder, hsplit]; simp)
      exact mem_treeHashes.mpr ⟨r, hmem, hleaf, hintact.2 r hmem, hhash⟩
    case mpr =>
      rintro ⟨-, hash', hsome, htree, hall⟩
      cases hprev.symm.trans hsome
      refine ⟨htree, ?_⟩
      rintro ⟨first, r, rest', hsplit, hhash, -, hnot⟩
      exact hnot (hall first r rest' hsplit hhash)

/-- What the pass makes of the next row. -/
theorem Follows.verdict_eq (hf : Follows known afterTail b group before w) (hintact : Intact group)
    (horder : ordered group = before ++ row :: rest) (hgap : w.gapAt row = false)
    (hdangles : ¬Dangles known afterTail b group before row) :
    (row.task_id ≠ "" ∧ row.task_id ∈ known ∧ verdict known w row = .leaf false) ∨
    (row.task_id = "" ∧ verdict known w row = .line true) ∨
    (Repeats known afterTail b before row ∧ verdict known w row = .repeated) ∨
    (row.task_id ≠ "" ∧ row.task_id ∉ known ∧ ¬Repeats known afterTail b before row ∧
      verdict known w row = .accepted) := by
  have hmem : row ∈ group := mem_ordered.mp (by rw [horder]; simp)
  have hstored := hintact.2 row hmem
  have hprev : ¬Repeats known afterTail b before row → w.prevNotAccepted row = false := by
    intro hrepeats
    rw [Bool.eq_false_iff, ne_eq, hf.prevNotAccepted hintact horder hrepeats]
    exact hdangles
  by_cases hline : row.task_id = ""
  · right; left
    refine ⟨hline, ?_⟩
    unfold verdict
    rw [if_neg fun h => h.1 hline, if_pos hline, hf.tainted, hgap, hprev (not_repeats_of_line hline), hstored]
    rfl
  by_cases hleaf : row.task_id ∈ known
  · left
    refine ⟨hline, hleaf, ?_⟩
    unfold verdict
    rw [if_pos ⟨hline, hleaf⟩, hgap, hprev (not_repeats_of_leaf hleaf), hstored]
    rfl
  have hverdict : verdict known w row = if w.books.has row.task_id then .repeated else
      if !row.stored then .refused .missing_row_hash
      else if w.tainted || w.gapAt row || w.prevNotAccepted row || (row.prev.isNone && row.position.any (1 < ·)) then
        .refused .depends_on_refused
      else .accepted := by
    unfold verdict
    rw [if_neg fun h => hleaf h.2, if_neg hline]
  by_cases hrepeats : Repeats known afterTail b before row
  · right; right; left
    refine ⟨hrepeats, ?_⟩
    rw [hverdict, if_pos ((hf.repeats hline hleaf).mpr hrepeats)]
  · right; right; right
    refine ⟨hline, hleaf, hrepeats, ?_⟩
    have hroot : (row.prev.isNone && row.position.any (1 < ·)) = false := by
      rw [Bool.and_eq_false_imp, Option.isNone_iff_eq_none]
      intro hnone
      cases hposition : row.position with
      | none => rfl
      | some seq =>
        have hle := root_of_intact hintact hmem hnone seq hposition
        simp only [Option.any_some, decide_eq_false_iff_not]
        omega
    rw [hverdict, if_neg (mt (hf.repeats hline hleaf).mp hrepeats), hstored, hf.tainted, hgap, hprev hrepeats, hroot]
    rfl

variable {earlier : List ((_ : ℤ) × List Row)} {agent : ℤ}

/-- The pass goes on along a row that does not dangle. -/
theorem Follows.step (hf : Follows known afterTail b group before w) (hintact : Intact group)
    (horder : ordered group = before ++ row :: rest) (hgap : w.gapAt row = false)
    (hdangles : ¬Dangles known afterTail b group before row) :
    Follows known afterTail b group (before ++ [row]) (walkRow known afterTail agent w row) := by
  have hv := hf.verdict_eq hintact horder hgap hdangles
  have hbefore : ∀ {task : String}, (∃ r ∈ before ++ [row], r.task_id = task) ↔
      (∃ r ∈ before, r.task_id = task) ∨ row.task_id = task := by
    intro task
    simp [or_and_right, exists_or]
  constructor
  case tainted =>
    unfold walkRow
    rcases hv with ⟨-, -, hv⟩ | ⟨-, hv⟩ | ⟨-, hv⟩ | ⟨-, -, -, hv⟩ <;> rw [hv]
    · exact Bool.or_eq_false_iff.mpr ⟨hf.tainted, rfl⟩
    · exact hf.tainted
    · exact hf.tainted
    · rfl
  case unlogged =>
    intro task
    rw [walkRow_books]
    rcases hv with ⟨-, -, hv⟩ | ⟨-, hv⟩ | ⟨-, hv⟩ | ⟨-, -, -, hv⟩ <;> rw [hv] <;> dsimp only
    · exact hf.unlogged task
    · exact hf.unlogged task
    · exact hf.unlogged task
    · rw [← hf.unlogged task]
      unfold Walk.accept
      dsimp only
      split <;> rfl
  case has =>
    intro task htask hknown
    rw [walkRow_books, hbefore]
    rcases hv with ⟨-, hleaf, hv⟩ | ⟨hline, hv⟩ | ⟨hrepeats, hv⟩ | ⟨-, -, -, hv⟩ <;> rw [hv] <;> dsimp only
    · rw [hf.has task htask hknown]
      have hne : row.task_id ≠ task := fun heq => hknown (heq ▸ hleaf)
      simp [hne]
    · rw [hf.has task htask hknown]
      have hne : row.task_id ≠ task := fun heq => htask (heq ▸ hline)
      simp [hne]
    · rw [hf.has task htask hknown]
      constructor
      · exact fun h => h.imp_right fun h => ⟨h.1, Or.inl h.2⟩
      · rintro (h | ⟨hafter, h | rfl⟩)
        · exact Or.inl h
        · exact Or.inr ⟨hafter, h⟩
        · exact hrepeats.2.2
    · rw [has_accept, Bool.or_eq_true, hf.has task htask hknown, decide_eq_true_eq]
      constructor
      · rintro (⟨hafter, rfl⟩ | h | ⟨hafter, h⟩)
        · exact Or.inr ⟨hafter, Or.inr rfl⟩
        · exact Or.inl h
        · exact Or.inr ⟨hafter, Or.inl h⟩
      · rintro (h | ⟨hafter, h | rfl⟩)
        · exact Or.inr (Or.inl h)
        · exact Or.inr (Or.inr ⟨hafter, h⟩)
        · exact Or.inl ⟨hafter, rfl⟩
  case taken =>
    intro hash
    -- the splits of the longer list are the old ones and the one at the new row
    have hsplits : (∃ first r rest', before ++ [row] = first ++ r :: rest' ∧ r.row_hash = hash ∧
          r.task_id ∉ known.filter (· ≠ "") ∧ ¬Repeats known afterTail b first r) ↔
        (∃ first r rest', before = first ++ r :: rest' ∧ r.row_hash = hash ∧
          r.task_id ∉ known.filter (· ≠ "") ∧ ¬Repeats known afterTail b first r) ∨
        (row.row_hash = hash ∧ row.task_id ∉ known.filter (· ≠ "") ∧ ¬Repeats known afterTail b before row) := by
      constructor
      · rintro ⟨first, r, rest', hsplit, hr⟩
        rcases split_concat hsplit with ⟨rfl, rfl⟩ | ⟨rest'', hsplit'⟩
        · exact Or.inr hr
        · exact Or.inl ⟨first, r, rest'', hsplit', hr⟩
      · rintro (⟨first, r, rest', rfl, hr⟩ | hr)
        · exact ⟨first, r, rest' ++ [row], by simp, hr⟩
        · exact ⟨before, row, [], rfl, hr⟩
    rw [walkRow_hashes, hsplits, ← or_assoc, ← hf.taken]
    rcases hv with ⟨htask, hleaf, hv⟩ | ⟨hline, hv⟩ | ⟨hrepeats, hv⟩ | ⟨-, hknown, hrepeats, hv⟩ <;> rw [hv]
    · rw [if_neg (by simp [Verdict.accepts])]
      have hin : row.task_id ∈ known.filter (· ≠ "") := List.mem_filter.mpr ⟨hleaf, by simpa using htask⟩
      exact (or_iff_left fun h => h.2.1 hin).symm
    · rw [if_pos (by simp [Verdict.accepts]), List.mem_cons]
      have hout : row.task_id ∉ known.filter (· ≠ "") := by simp [hline]
      have hnot : ¬Repeats known afterTail b before row := not_repeats_of_line hline
      simp only [hout, hnot, not_false_eq_true, and_true]
      rw [or_comm, eq_comm]
    · rw [if_neg (by simp [Verdict.accepts])]
      simp [hrepeats]
    · rw [if_pos (by simp [Verdict.accepts]), List.mem_cons]
      have hout : row.task_id ∉ known.filter (· ≠ "") := fun hmem => hknown (List.mem_of_mem_filter hmem)
      simp only [hout, hrepeats, not_false_eq_true, and_true]
      rw [or_comm, eq_comm]

end Chain

/-! ## What becomes of a task -/

section Task

variable {known afterTail : List String} {agent : ℤ} {w : Walk} {row : Row} {task : String}

variable {b : Books} {group : List Row}

end Task

/-! ## When every task of an intact chain is appended -/

end BackfillChain
