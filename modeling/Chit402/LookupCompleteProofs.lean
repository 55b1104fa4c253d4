import Chit402.LookupProofs

/-! # Honest lookups are accepted

    Where every query row is a row of the table, found by its code, the
    advice balances at every `β` that is no fold, and all the sumchecks
    and openings of both forms go through. -/

namespace LookupComplete

open ExceptFlow Multilinear Mle FiatShamir Sumcheck MatMulSound Logup Lookup Finset

open MatMul (Pcs)

variable {F : Type}

/-! ## Folds -/

section Folds

variable [Field F]

theorem foldValues_eq (vals : List F) (gamma : F) : foldValues vals gamma = (rowPoly vals).eval gamma := by
  have hloop : ∀ acc coeff : F, (vals.foldl (fun st v => (st.1 + st.2 * v, st.2 * gamma)) (acc, coeff)).1
      = acc + coeff * (rowPoly vals).eval gamma := by
    induction vals with
    | nil =>
      intro acc coeff
      rw [rowPoly, Polynomial.eval_zero, mul_zero, add_zero]
      rfl
    | cons v vals ih =>
      intro acc coeff
      rw [List.foldl_cons, ih, rowPoly, Polynomial.eval_add, Polynomial.eval_C, Polynomial.eval_mul, Polynomial.eval_X]
      ring
  rw [foldValues, hloop, zero_add, one_mul]

def row (cols : List (List F)) (i : ℕ) : List F := cols.map fun col => entry col i

theorem length_row (cols : List (List F)) (i : ℕ) : (row cols i).length = cols.length := List.length_map _

/-- Columns of one length. -/
def Shaped (cols : List (List F)) (n : ℕ) : Prop := cols ≠ [] ∧ ∀ col ∈ cols, col.length = n

instance (cols : List (List F)) (n : ℕ) : Decidable (Shaped cols n) :=
  inferInstanceAs (Decidable (cols ≠ [] ∧ ∀ col ∈ cols, col.length = n))

variable {cols : List (List F)} {n : ℕ}

omit [Field F] in
theorem Shaped.firstColumn (h : Shaped cols n) : ∃ code, firstColumn cols = .ok code ∧ code ∈ cols
    ∧ cols.headD [] = code := by
  cases cols with
  | nil => exact absurd rfl h.1
  | cons col cols => exact ⟨col, rfl, List.mem_cons_self, rfl⟩

theorem Shaped.length_fold (h : Shaped cols n) (gamma : F) : (foldColumns cols gamma).length = n := by
  obtain ⟨code, -, hmem, hhead⟩ := h.firstColumn
  rw [foldColumns, List.length_map, List.length_range, hhead, h.2 code hmem]

theorem Shaped.entry_fold (h : Shaped cols n) (gamma : F) {i : ℕ} (hi : i < n) :
    entry (foldColumns cols gamma) i = (rowPoly (row cols i)).eval gamma := by
  obtain ⟨code, -, hmem, hhead⟩ := h.firstColumn
  rw [foldColumns, hhead, h.2 code hmem, entry_map_range _ hi, foldValues_eq]
  rfl

/-- Folding commutes with the extension. -/
theorem ext_rowPoly (cols : List (List F)) (gamma : F) (point : List F) :
    Multilinear.ext point (fun i => (rowPoly (row cols i)).eval gamma)
      = (rowPoly (cols.map fun col => mle col point)).eval gamma := by
  induction cols with
  | nil =>
    refine (ext_congr fun i _ => ?_).trans (ext_const point 0) |>.trans ?_
    · rw [row, List.map_nil, rowPoly, Polynomial.eval_zero]
    · rw [List.map_nil, rowPoly, Polynomial.eval_zero]
  | cons col cols ih =>
    have hhead : ∀ i, (rowPoly (row (col :: cols) i)).eval gamma = entry col i + gamma
      * (rowPoly (row cols i)).eval gamma := by
      intro i
      rw [row, List.map_cons, rowPoly, Polynomial.eval_add, Polynomial.eval_C, Polynomial.eval_mul, Polynomial.eval_X]
      rfl
    simp only [hhead]
    rw [ext_add, ext_mul, ih, List.map_cons, rowPoly, Polynomial.eval_add, Polynomial.eval_C, Polynomial.eval_mul,
      Polynomial.eval_X]
    rfl

theorem Shaped.mle_fold {point : List F} (h : Shaped cols (2 ^ point.length)) (gamma : F) :
    mle (foldColumns cols gamma) point = foldValues (cols.map fun col => mle col point) gamma := by
  rw [foldValues_eq, ← ext_rowPoly]
  exact ext_congr fun i hi => h.entry_fold gamma hi

end Folds

/-! ## Multiplicities -/

section Multiplicities

variable [Field F] [DecidableEq F]

/-- A table whose codes are distinct has each code in one row. -/
theorem codeIndex_eq {tableCode : List F} (hcodes : tableCode.Nodup) {j : ℕ} (hj : j < tableCode.length) :
    codeIndex tableCode (entry tableCode j) = .ok j := by
  have hfilter : ∀ k ∈ (List.range tableCode.length).filter fun k => entry tableCode k = entry tableCode j, k = j := by
    intro k hk
    obtain ⟨hk, hsame⟩ := List.mem_filter.mp hk
    have hk := List.mem_range.mp hk
    have hsame := of_decide_eq_true hsame
    rw [entry_of_lt hk, entry_of_lt hj] at hsame
    exact (List.Nodup.getElem_inj_iff hcodes).mp hsame
  have hmem : j ∈ (List.range tableCode.length).filter fun k => entry tableCode k = entry tableCode j :=
    List.mem_filter.mpr ⟨List.mem_range.mpr hj, decide_eq_true rfl⟩
  rw [codeIndex]
  cases hlast : ((List.range tableCode.length).filter fun k => entry tableCode k = entry tableCode j).getLast? with
  | none =>
    rw [List.getLast?_eq_none_iff] at hlast
    rw [hlast] at hmem
    exact absurd hmem List.not_mem_nil
  | some k =>
    obtain rfl := hfilter k (List.mem_of_getLast? hlast)
    rfl

/-- The loop counts how often each row is met. -/
theorem count_loop {tableCode : List F} {rowOf : F → ℕ} {codes : List F}
    (hrow : ∀ code ∈ codes, codeIndex tableCode code = .ok (rowOf code)) (m : List F) :
    ∃ m', codes.foldlM (fun m code => do
        let j ← codeIndex tableCode code
        .ok (m.modify j (· + 1))) m = .ok m' ∧ m'.length = m.length
      ∧ ∀ j < m.length, entry m' j = entry m j + (codes.countP fun code => rowOf code = j : ℕ) := by
  induction codes generalizing m with
  | nil => exact ⟨m, rfl, rfl, fun j _ => by rw [List.countP_nil, Nat.cast_zero, add_zero]⟩
  | cons code codes ih =>
    have hcode := hrow code List.mem_cons_self
    obtain ⟨m', hloop, hlen, hcount⟩ := ih (fun c hc => hrow c (List.mem_cons_of_mem _ hc))
      (m.modify (rowOf code) (· + 1))
    rw [List.length_modify] at hlen hcount
    refine ⟨m', ?_, hlen, fun j hj => ?_⟩
    · rw [List.foldlM_cons, hcode]
      exact hloop
    · have hentry : entry (m.modify (rowOf code) (· + 1)) j = entry m j + if rowOf code = j then 1 else 0 := by
        rw [entry_of_lt (by rwa [List.length_modify]), List.getElem_modify, entry_of_lt hj]
        by_cases h : rowOf code = j
        · rw [if_pos h, if_pos h]
        · rw [if_neg h, if_neg h, add_zero]
      rw [hcount j hj, hentry, List.countP_cons]
      by_cases h : rowOf code = j
      · rw [if_pos h, if_pos (decide_eq_true h), Nat.cast_add, Nat.cast_one]
        ring
      · rw [if_neg h, if_neg (by rwa [decide_eq_true_iff]), add_zero, Nat.add_zero]

omit [DecidableEq F] in
theorem countP_eq_card (codes : List F) (P : F → Prop) [DecidablePred P] :
    codes.countP (fun code => P code) = ((range codes.length).filter fun i => P (entry codes i)).card := by
  have hlist : codes = (List.range codes.length).map (entry codes) :=
    table_ext (by rw [List.length_map, List.length_range]) fun x hx => (entry_map_range _ hx).symm
  conv_lhs => rw [hlist]
  rw [List.countP_map, List.countP_eq_length_filter]
  rfl

end Multiplicities

/-! ## Advice -/

section Advice

variable [Field F] [DecidableEq F]

/-- Queries that the table answers: each row is one of its rows, and its codes are distinct. -/
structure Answered (lq lt : ℕ) (queryCols tableCols : List (List F)) : Prop where
  query : Shaped queryCols (2 ^ lq)
  table : Shaped tableCols (2 ^ lt)
  codes : (tableCols.headD []).Nodup
  rows : ∀ i < 2 ^ lq, ∃ j < 2 ^ lt, row queryCols i = row tableCols j

variable {lq lt : ℕ} {queryCols tableCols : List (List F)}

/-- The row of the table that a code is found in. -/
def rowOf (tableCode : List F) (code : F) : ℕ := (codeIndex tableCode code).toOption.getD 0

omit [DecidableEq F] in
theorem entry_of_row {cols cols' : List (List F)} {n n' i j : ℕ} (h : Shaped cols n) (h' : Shaped cols' n')
    (hrow : row cols i = row cols' j) : entry (cols.headD []) i = entry (cols'.headD []) j := by
  cases cols with
  | nil => exact absurd rfl h.1
  | cons col cols =>
    cases cols' with
    | nil => exact absurd rfl h'.1
    | cons col' cols' => exact (List.cons.inj hrow).1

/-- The code of a query leads to the row that answers it. -/
theorem Answered.found (h : Answered lq lt queryCols tableCols) {i : ℕ} (hi : i < 2 ^ lq) :
    ∃ j < 2 ^ lt, codeIndex (tableCols.headD []) (entry (queryCols.headD []) i) = .ok j
      ∧ rowOf (tableCols.headD []) (entry (queryCols.headD []) i) = j ∧ row queryCols i = row tableCols j := by
  obtain ⟨j, hj, hrow⟩ := h.rows i hi
  obtain ⟨code, -, hmem, hhead⟩ := h.table.firstColumn
  have hindex : codeIndex (tableCols.headD []) (entry (queryCols.headD []) i) = .ok j := by
    rw [entry_of_row h.query h.table hrow]
    refine codeIndex_eq h.codes ?_
    rw [hhead, h.table.2 code hmem]
    exact hj
  refine ⟨j, hj, hindex, ?_, hrow⟩
  rw [rowOf, hindex]
  rfl

/-- `multiplicities` does not panic, and counts the queries of each row. -/
theorem Answered.multiplicities (h : Answered lq lt queryCols tableCols) :
    ∃ m, multiplicities (queryCols.headD []) (tableCols.headD []) = .ok m ∧ m.length = 2 ^ lt ∧ ∀ j < 2 ^ lt, entry m j
        = ((range (2 ^ lq)).filter fun i => rowOf (tableCols.headD []) (entry (queryCols.headD []) i) = j).card := by
  obtain ⟨queryCode, -, hqmem, hqhead⟩ := h.query.firstColumn
  obtain ⟨tableCode, -, htmem, hthead⟩ := h.table.firstColumn
  have hqlen : (queryCols.headD []).length = 2 ^ lq := by rw [hqhead, h.query.2 queryCode hqmem]
  have htlen : (tableCols.headD []).length = 2 ^ lt := by rw [hthead, h.table.2 tableCode htmem]
  have hfound : ∀ code ∈ queryCols.headD [], codeIndex (tableCols.headD []) code
    = .ok (rowOf (tableCols.headD []) code) := by
    intro code hcode
    obtain ⟨i, hi, rfl⟩ := List.mem_iff_getElem.mp hcode
    rw [← entry_of_lt hi]
    rw [hqlen] at hi
    obtain ⟨j, -, hindex, hrowOf, -⟩ := h.found hi
    rw [hindex, hrowOf]
  obtain ⟨m, hloop, hlen, hcount⟩ := count_loop hfound (List.replicate (tableCols.headD []).length 0)
  rw [List.length_replicate, htlen] at hlen hcount
  refine ⟨m, hloop, hlen, fun j hj => ?_⟩
  have hzero : entry (List.replicate (2 ^ lt) (0 : F)) j = 0 := by
    rw [entry_of_lt (by rwa [List.length_replicate]), List.getElem_replicate]
  rw [hcount j hj, hzero, zero_add, countP_eq_card, hqlen]

omit [DecidableEq F] in
theorem sum_entries (t : List F) : t.sum = ∑ x ∈ range t.length, entry t x := by
  induction t with
  | nil => rfl
  | cons x t ih =>
    rw [List.sum_cons, ih, List.length_cons, sum_range_succ', add_comm]
    rfl

/-- `β` is the value of no row. -/
def Misses (beta : F) (folds : List F) : Prop := ∀ x ∈ folds, beta ≠ x

instance (beta : F) (folds : List F) : Decidable (Misses beta folds) :=
  inferInstanceAs (Decidable (∀ x ∈ folds, beta ≠ x))

theorem queryFractions_eq {beta : F} {q : List F} (h : Misses beta q) :
    queryFractions beta q = .ok (q.map fun qi => (beta - qi)⁻¹) :=
  mapM_ok_map fun qi hqi => inverse_of_ne (sub_ne_zero.mpr (h qi hqi))

theorem tableFractions_eq {beta : F} {tau : List F} (m : List F) (h : Misses beta tau) :
    tableFractions beta tau m = .ok ((tau.zip m).map fun x => x.2 * (beta - x.1)⁻¹) := by
  refine mapM_ok_map fun x hx => ?_
  rw [inverse_of_ne (sub_ne_zero.mpr (h x.1 (List.of_mem_zip hx).1))]
  rfl

omit [DecidableEq F] in
theorem Misses.entry {beta : F} {q : List F} (h : Misses beta q) {i : ℕ} (hi : i < q.length) : beta ≠ entry q i := by
  rw [entry_of_lt hi]
  exact h _ (List.getElem_mem hi)

/-- The advice of an honest prover. -/
structure Advised (lq lt : ℕ) (q tau m a b : List F) (beta : F) : Prop where
  query : queryFractions beta q = .ok a
  table : tableFractions beta tau m = .ok b
  lengthA : a.length = 2 ^ lq
  lengthB : b.length = 2 ^ lt
  balanced : Balanced (2 ^ lq) (2 ^ lt) (entry q) (entry tau) (entry m) (entry a) (entry b) beta

theorem Advised.sum {q tau m a b : List F} {beta : F} (h : Advised lq lt q tau m a b beta) : a.sum = b.sum := by
  rw [sum_entries, sum_entries, h.lengthA, h.lengthB, h.balanced.sums]

theorem Answered.advised (h : Answered lq lt queryCols tableCols) {m : List F} (hm : m.length = 2 ^ lt)
    (hcount : ∀ j < 2 ^ lt, entry m j
      = ((range (2 ^ lq)).filter fun i => rowOf (tableCols.headD []) (entry (queryCols.headD []) i) = j).card)
    {gamma beta : F} (hq : Misses beta (foldColumns queryCols gamma)) (ht : Misses beta (foldColumns tableCols gamma)) :
    ∃ a b, Advised lq lt (foldColumns queryCols gamma) (foldColumns tableCols gamma) m a b beta := by
  have hqlen := h.query.length_fold gamma
  have htlen := h.table.length_fold gamma
  have hbalanced : Balanced (2 ^ lq) (2 ^ lt) (entry (foldColumns queryCols gamma))
    (entry (foldColumns tableCols gamma))
      (entry m) (fun i => (beta - entry (foldColumns queryCols gamma) i)⁻¹)
      (fun j => entry m j * (beta - entry (foldColumns tableCols gamma) j)⁻¹) beta := by
    refine balanced_of_rows (fun i => rowOf (tableCols.headD []) (entry (queryCols.headD []) i)) ?_ ?_ hcount ?_ ?_
    · intro i hi
      obtain ⟨j, hj, -, hrowOf, -⟩ := h.found hi
      exact hrowOf ▸ hj
    · intro i hi
      obtain ⟨j, hj, -, hrowOf, hrow⟩ := h.found hi
      rw [hrowOf, h.query.entry_fold gamma hi, h.table.entry_fold gamma hj, hrow]
    · intro i hi
      exact hq.entry (hqlen.symm ▸ hi)
    · intro j hj
      exact ht.entry (htlen.symm ▸ hj)
  refine ⟨_, _, queryFractions_eq hq, tableFractions_eq m ht, ?_, ?_, hbalanced.congr ?_ ?_⟩
  · rw [List.length_map, hqlen]
  · rw [List.length_map, List.length_zip, htlen, hm, Nat.min_self]
  · intro i hi
    have hi' : i < (foldColumns queryCols gamma).length := hqlen.symm ▸ hi
    rw [entry_of_lt (by rwa [List.length_map]), List.getElem_map, entry_of_lt hi']
  · intro j hj
    have hj' : j < (foldColumns tableCols gamma).length := htlen.symm ▸ hj
    have hjm : j < m.length := hm.symm ▸ hj
    rw [entry_of_lt (by rw [List.length_map, List.length_zip, htlen, hm, Nat.min_self]; exact hj), List.getElem_map,
      List.getElem_zip, entry_of_lt hj', entry_of_lt hjm]

end Advice

/-! ## The rounds -/

section Rounds

variable [Field F]

theorem ext_eqWeights {r ch : List F} (h : r.length = ch.length) : Multilinear.ext ch (weight r) = eqEval r ch := by
  rw [← mle_eqWeights h]
  exact ext_congr fun x hx => (eqWeights_entry (by rwa [h])).symm

theorem cubeSum_eqWeights (r a q : List F) :
    cubeSum r.length (entries [eqWeights r, a, q]) = cubeSum r.length [weight r, entry a, entry q] :=
  sum_congr rfl fun x hx => by
    rw [entries, List.map_cons, List.map_cons, List.map_cons, List.prod_cons, eqWeights_entry (mem_range.mp hx)]
    rfl

theorem claim_of_equation {r a q : List F} {m : ℕ → F} {beta : F}
    (heq : ∀ x < 2 ^ r.length, entry a x * (beta - entry q x) = m x) :
    beta * mle a r - Multilinear.ext r m = cubeSum r.length (entries [eqWeights r, a, q]) := by
  have hzero : (Multilinear.ext r fun x => entry a x * (beta - entry q x) - m x) = 0 :=
    (ext_congr fun x hx => by rw [heq x hx, sub_self]).trans (ext_const r 0)
  rw [cubeSum_eqWeights, ← sub_eq_zero, ← hzero, ← zerocheck_claim]
  rfl

variable [DecidableEq F]

/-- What an honest zero check ends with, for any equation it is about. -/
structure ZeroDone (lbl : List UInt8) (s : ℕ) (a q : List F) (tr : Transcript F) (sc : MultiSumcheckProof F)
    (r ch : List F) (tr' : Transcript F) : Prop where
  proved : proveZeroCheck lbl (2 ^ s) a q tr = .ok ((sc, r, ch), tr')
  point : r.length = s
  challenges : ch.length = s
  verified : ∀ (m : ℕ → F) (beta : F) (claim : List F → Except Abort F),
    (∀ x < 2 ^ s, entry a x * (beta - entry q x) = m x) → claim r = .ok (beta * mle a r - Multilinear.ext r m) →
    zeroCheckRounds lbl (2 ^ s) claim sc tr = .ok ((r, ch, eqEval r ch * mle a ch * mle q ch), tr')

theorem zeroCheck_complete (hnodes : Nodes F 4) {s : ℕ} {a q : List F} (ha : a.length = 2 ^ s) (hq : q.length = 2 ^ s)
    (lbl : List UInt8) (tr : Transcript F) : ∃ sc r ch tr', ZeroDone lbl s a q tr sc r ch tr' := by
  obtain ⟨r, hr⟩ : ∃ r, r = drawPoint s lbl tr := ⟨_, rfl⟩
  have hpoint : r.1.length = s := by
    rw [hr, length_drawPoint]
  have hlen : ∀ t ∈ [eqWeights r.1, a, q], t.length = 2 ^ s := by
    intro t ht
    rcases List.mem_cons.mp ht with rfl | ht
    · rw [length_eqWeights, hpoint]
    · rcases List.mem_pair.mp ht with rfl | rfl
      · exact ha
      · exact hq
  obtain ⟨sc, ch, tr', hprove, hch, hverify⟩ := multi_complete r.2 (List.cons_ne_nil (eqWeights r.1) [a, q]) hnodes hlen
  refine ⟨sc, r.1, ch, tr', ?_⟩
  constructor
  case proved =>
    rw [proveZeroCheck, log2Exact_pow, ok_bind]
    show (proveProductMulti [eqWeights (drawPoint s lbl tr).1, a, q] (drawPoint s lbl tr).2 >>= _) = _
    rw [← hr, hprove]
    rfl
  case point => exact hpoint
  case challenges => exact hch
  case verified =>
    intro m beta claim heq hclaim
    have hsum := claim_of_equation (r := r.1) (a := a) (q := q) (by rwa [hpoint])
    rw [hpoint] at hsum
    rw [zeroCheckRounds, log2Exact_pow, ok_bind]
    show (claim (drawPoint s lbl tr).1 >>= fun value => verifyProductMulti sc value (drawPoint s lbl tr).2 >>= _) = _
    rw [← hr, hclaim, ok_bind, hsum, hverify, List.map_cons, List.map_cons, List.map_cons, List.map_nil, List.prod_cons,
      List.prod_cons, List.prod_cons, List.prod_nil, mul_one, mle_eqWeights (hpoint.trans hch.symm), ← mul_assoc]
    rfl

theorem verifyZeroCheck_complete {lbl : List UInt8} {s : ℕ} {a q r ch : List F} {tr tr' : Transcript F}
    {sc : MultiSumcheckProof F} (h : ZeroDone lbl s a q tr sc r ch tr') (ha : a.length = 2 ^ s) (hq : q.length = 2 ^ s)
    {m : ℕ → F} {beta : F} (heq : ∀ x < 2 ^ s, entry a x * (beta - entry q x) = m x)
    {target : List F → Except Abort F} (htarget : target r = .ok (Multilinear.ext r m)) :
    verifyZeroCheck lbl (2 ^ s) beta a q target sc tr = .ok tr' := by
  have hr : a.length = 2 ^ r.length := by rw [ha, h.point]
  rw [verifyZeroCheck, h.verified m beta _ heq, ok_bind]
  · show (mleEval a ch >>= _) = _
    rw [mleEval_of_length (by rw [ha, h.challenges]), ok_bind, mleEval_of_length (by rw [hq, h.challenges]), ok_bind,
      revertIf_of_not _ (not_not.mpr rfl)]
    rfl
  · rw [mleEval_of_length hr, ok_bind, htarget]
    rfl

end Rounds

/-! ## In the clear -/

section Clear

variable [Field F] [DecidableEq F] {lq lt : ℕ} {queryCols tableCols : List (List F)}

theorem isPowerOfTwo_pow (s : ℕ) : IsPowerOfTwo (2 ^ s) := by
  rw [IsPowerOfTwo, Nat.log2_two_pow]

omit [Field F] [DecidableEq F] in
theorem Shaped.checked {cols : List (List F)} {n : ℕ} (h : Shaped cols n) (stop : Abort) :
    checkColumns stop cols n = .ok () := by
  refine revertIf_of_not _ ?_
  rintro ⟨col, hcol, hne⟩
  exact hne (h.2 col hcol)

/-- **COMPLETE IN THE CLEAR**: at a `β` that is no fold, the prover does not panic and the
    verifier accepts. -/
theorem lookup_complete (hnodes : Nodes F 4) (commitTable : List F → List UInt8)
    (h : Answered lq lt queryCols tableCols)
    (tr : Transcript F) : ∃ m, multiplicities (queryCols.headD []) (tableCols.headD []) = .ok m
      ∧ (Misses (bindAndChallenge commitTable queryCols tableCols m tr).1.2
          (foldColumns queryCols (bindAndChallenge commitTable queryCols tableCols m tr).1.1) →
        Misses (bindAndChallenge commitTable queryCols tableCols m tr).1.2
          (foldColumns tableCols (bindAndChallenge commitTable queryCols tableCols m tr).1.1) →
        ∃ proof tr', proveLookup commitTable queryCols tableCols tr = .ok (proof, tr')
          ∧ verifyLookup commitTable queryCols tableCols proof tr = .ok tr') := by
  obtain ⟨m, hm, hmlen, hcount⟩ := h.multiplicities
  refine ⟨m, hm, fun hq ht => ?_⟩
  obtain ⟨bound, hbound⟩ : ∃ bound, bound = bindAndChallenge commitTable queryCols tableCols m tr := ⟨_, rfl⟩
  rw [← hbound] at hq ht
  obtain ⟨a, b, hadvised⟩ := h.advised hmlen hcount hq ht
  obtain ⟨queryCode, hqfirst, hqmem, hqhead⟩ := h.query.firstColumn
  obtain ⟨tableCode, htfirst, htmem, hthead⟩ := h.table.firstColumn
  have hqlen : queryCode.length = 2 ^ lq := h.query.2 queryCode hqmem
  have htlen : tableCode.length = 2 ^ lt := h.table.2 tableCode htmem
  obtain ⟨scQ, r2, ch2, tr2, hzq⟩ := zeroCheck_complete hnodes hadvised.lengthA (h.query.length_fold bound.1.1)
    (label "lk.r2") (absorbAdvice commitTable a b bound.2)
  obtain ⟨scT, r3, ch3, tr3, hzt⟩ := zeroCheck_complete hnodes hadvised.lengthB (h.table.length_fold bound.1.1)
    (label "lk.r3") tr2
  rw [hqhead, hthead] at hm
  refine ⟨⟨a, b, m, scQ, scT⟩, tr3, ?_, ?_⟩
  · rw [proveLookup, hqfirst, ok_bind, htfirst, ok_bind, hqlen, htlen,
      guarded_of_not (not_not.mpr ⟨isPowerOfTwo_pow lq, isPowerOfTwo_pow lt⟩), h.query.checked, ok_bind,
      h.table.checked, ok_bind, hm, ok_bind]
    show (queryFractions (bindAndChallenge commitTable queryCols tableCols m tr).1.2 _ >>= _) = _
    rw [← hbound, hadvised.query, ok_bind, hadvised.table, ok_bind, hzq.proved, ok_bind, hzt.proved]
    rfl
  · rw [verifyLookup, hqfirst, ok_bind, htfirst, ok_bind, hqlen, htlen,
      guarded_of_not (not_or.mpr ⟨not_not.mpr (isPowerOfTwo_pow lq), not_not.mpr (isPowerOfTwo_pow lt)⟩),
      guarded_of_not (not_or.mpr ⟨not_not.mpr hadvised.lengthA, not_or.mpr ⟨not_not.mpr hadvised.lengthB,
        not_not.mpr hmlen⟩⟩), h.query.checked, ok_bind, h.table.checked, ok_bind]
    show (revertIf (a.sum ≠ b.sum) _ >>= fun _ =>
      verifyZeroCheck _ _ (bindAndChallenge commitTable queryCols tableCols m tr).1.2 _ _ _ _ _ >>= _) = _
    rw [← hbound, guarded_of_not (not_not.mpr hadvised.sum),
      verifyZeroCheck_complete hzq hadvised.lengthA (h.query.length_fold _) hadvised.balanced.query (by rw [ext_const]),
      ok_bind]
    refine verifyZeroCheck_complete hzt hadvised.lengthB (h.table.length_fold _) hadvised.balanced.table ?_
    exact mleEval_of_length (by rw [hmlen, hzt.point])

end Clear

/-! ## Committed -/

section Committed

variable [Field F] [DecidableEq F] {lq lt : ℕ} {queryCols tableCols : List (List F)} {pcs : Pcs F}
  {committed : pcs.Comm → List F}

/-- What an honest sumcheck of one table ends with. -/
structure SumDone (s : ℕ) (a : List F) (tr : Transcript F) (sc : MultiSumcheckProof F) (ch : List F) (finals : List F)
    (tr' : Transcript F) : Prop where
  proved : proveProductMulti [a] tr = .ok ((sc, ch, finals), tr')
  challenges : ch.length = s
  verified : verifySum sc a.sum (mle a ch) tr = .ok (ch, tr')

theorem sum_complete (hnodes : Nodes F 2) {s : ℕ} {a : List F} (ha : a.length = 2 ^ s) (tr : Transcript F) :
    ∃ sc ch finals tr', SumDone s a tr sc ch finals tr' := by
  have hlen : ∀ t ∈ [a], t.length = 2 ^ s := fun t ht => List.mem_singleton.mp ht ▸ ha
  obtain ⟨sc, ch, tr', hprove, hch, hverify⟩ := multi_complete tr (List.cons_ne_nil a []) hnodes hlen
  have hsum : cubeSum s (entries [a]) = a.sum := by
    rw [sum_entries, ha]
    refine sum_congr rfl fun x _ => ?_
    rw [entries, List.map_cons, List.map_nil, List.map_cons, List.map_nil, List.prod_cons, List.prod_nil, mul_one]
  refine ⟨sc, ch, _, tr', hprove, hch, ?_⟩
  rw [verifySum, ← hsum, hverify, ok_bind, List.map_cons, List.map_nil, List.prod_cons, List.prod_nil, mul_one,
    revertIf_of_not _ (not_not.mpr rfl)]
  rfl

/-- The opening of a table at a point of its variables. -/
def opening (pcs : Pcs F) (t point : List F) : Opened pcs := ⟨mle t point, pcs.open' t point⟩

omit [DecidableEq F] in
theorem openAt_eq {t point : List F} {s : ℕ} (ht : t.length = 2 ^ s) (hpoint : point.length = s) :
    openAt pcs t point = .ok (opening pcs t point) := by
  rw [openAt, mleEval_of_length (by rw [ht, hpoint])]
  rfl

omit [DecidableEq F] in
theorem checkOpen_opening (hideal : Ideal pcs committed) {t point : List F} {s : ℕ} (ht : t.length = 2 ^ s)
    (hpoint : point.length = s) : checkOpen pcs (pcs.commit t) point (opening pcs t point) = true :=
  (hideal.verify_commit ht).mpr ⟨hpoint.symm, rfl⟩

omit [DecidableEq F] in
theorem all_checkOpen (hideal : Ideal pcs committed) {cols : List (List F)} {point : List F} {s : ℕ}
    (hcols : ∀ col ∈ cols, col.length = 2 ^ s) (hpoint : point.length = s) :
    ((cols.map pcs.commit).zip (cols.map fun col => opening pcs col point)).all
      (fun x => checkOpen pcs x.1 point x.2) = true := by
  rw [List.zip_map', List.all_map, List.all_eq_true]
  intro col hcol
  exact checkOpen_opening hideal (hcols col hcol) hpoint

theorem verifyZeroOpened_complete {lbl : List UInt8} {s : ℕ} {a q r ch : List F} {tr tr' : Transcript F}
    {sc : MultiSumcheckProof F} (h : ZeroDone lbl s a q tr sc r ch tr') {m : ℕ → F} {beta aR value : F}
    (heq : ∀ x < 2 ^ s, entry a x * (beta - entry q x) = m x) (haR : aR = mle a r)
    (hvalue : value = Multilinear.ext r m) :
    verifyZeroOpened lbl (2 ^ s) (beta * aR - value) (mle a ch) (mle q ch) sc tr = .ok ((r, ch), tr') := by
  subst haR hvalue
  rw [verifyZeroOpened, h.verified m beta _ heq rfl, ok_bind, revertIf_of_not _ (not_not.mpr rfl)]
  rfl

omit [DecidableEq F] in
theorem foldValues_openings {cols : List (List F)} {point : List F} {s : ℕ} (h : Shaped cols (2 ^ s))
    (hpoint : point.length = s) (gamma : F) :
    foldValues ((cols.map fun col => opening pcs col point).map (·.value)) gamma
      = mle (foldColumns cols gamma) point := by
  rw [List.map_map, Shaped.mle_fold (by rw [hpoint]; exact h)]
  rfl

/-- A run of the committed prover: the advice, the sumchecks and the zero checks. -/
structure CommittedDone (pcs : Pcs F) (lq lt : ℕ) (queryCols tableCols : List (List F))
    (m a b : List F) (gamma beta : F)
    (scSumA scSumB scQ scT : MultiSumcheckProof F) (cha chb r2 ch2 r3 ch3 : List F)
      (tr0 tr' : Transcript F) : Prop where
  advised : Advised lq lt (foldColumns queryCols gamma) (foldColumns tableCols gamma) m a b beta
  run : ∃ finA finB trA trB tr2,
    SumDone lq a (absorbSum (pcs.commit a) (pcs.commit b) a.sum tr0) scSumA cha finA trA
    ∧ SumDone lt b trA scSumB chb finB trB
    ∧ ZeroDone (label "clk.r2") lq a (foldColumns queryCols gamma) trB scQ r2 ch2 tr2
    ∧ ZeroDone (label "clk.r3") lt b (foldColumns tableCols gamma) tr2 scT r3 ch3 tr'

/-- The proof that such a run returns. -/
def committedProof (pcs : Pcs F) (queryCols tableCols : List (List F)) (m a b : List F)
    (scSumA scSumB scQ scT : MultiSumcheckProof F) (cha chb r2 ch2 r3 ch3 : List F) : CommittedLookupProof pcs where
  sum := a.sum
  scSumA := scSumA
  scSumB := scSumB
  scQ := scQ
  scT := scT
  commQuery := queryCols.map pcs.commit
  commTable := tableCols.map pcs.commit
  commM := pcs.commit m
  commA := pcs.commit a
  commB := pcs.commit b
  aCha := opening pcs a cha
  aR2 := opening pcs a r2
  aCh2 := opening pcs a ch2
  bChb := opening pcs b chb
  bR3 := opening pcs b r3
  bCh3 := opening pcs b ch3
  mR3 := opening pcs m r3
  queryCh2 := queryCols.map fun col => opening pcs col ch2
  tableCh3 := tableCols.map fun col => opening pcs col ch3

section Run

variable {m a b cha chb r2 ch2 r3 ch3 : List F} {scSumA scSumB scQ scT : MultiSumcheckProof F}
  {bound : (F × F) × Transcript F} {tr tr' : Transcript F}

theorem CommittedDone.proves (h : Answered lq lt queryCols tableCols)
    (hm : multiplicities (queryCols.headD []) (tableCols.headD []) = .ok m) (hmlen : m.length = 2 ^ lt)
    (hbound : bindCommitted (queryCols.map pcs.commit) (tableCols.map pcs.commit) (pcs.commit m) tr = bound)
    (hdone : CommittedDone pcs lq lt queryCols tableCols m a b bound.1.1 bound.1.2 scSumA scSumB scQ
      scT cha chb r2 ch2 r3
      ch3 bound.2 tr') : proveCommittedLookup pcs queryCols tableCols tr
      = .ok (committedProof pcs queryCols tableCols m a b scSumA scSumB scQ scT cha chb r2 ch2 r3 ch3, tr') := by
  obtain ⟨hadvised, finA, finB, trA, trB, tr2, hsumA, hsumB, hzq, hzt⟩ := hdone
  obtain ⟨queryCode, hqfirst, hqmem, hqhead⟩ := h.query.firstColumn
  obtain ⟨tableCode, htfirst, htmem, hthead⟩ := h.table.firstColumn
  have hquery : (queryCols.mapM fun col => openAt pcs col ch2) = .ok (queryCols.map fun col => opening pcs col ch2) :=
    mapM_ok_map fun col hcol => openAt_eq (h.query.2 col hcol) hzq.challenges
  have htable : (tableCols.mapM fun col => openAt pcs col ch3) = .ok (tableCols.map fun col => opening pcs col ch3) :=
    mapM_ok_map fun col hcol => openAt_eq (h.table.2 col hcol) hzt.challenges
  rw [hqhead, hthead] at hm
  rw [proveCommittedLookup, hqfirst, ok_bind, htfirst, ok_bind, h.query.2 queryCode hqmem, h.table.2 tableCode htmem,
    guarded_of_not (not_not.mpr ⟨isPowerOfTwo_pow lq, isPowerOfTwo_pow lt⟩), h.query.checked, ok_bind,
    h.table.checked, ok_bind, hm, ok_bind]
  show (queryFractions (bindCommitted (queryCols.map pcs.commit) (tableCols.map pcs.commit) (pcs.commit m) tr).1.2 _
    >>= _) = _
  rw [hbound, hadvised.query, ok_bind, hadvised.table, ok_bind]
  show (proveProductMulti [a] (absorbSum (pcs.commit a) (pcs.commit b) a.sum bound.2) >>= _) = _
  rw [hsumA.proved, ok_bind, hsumB.proved, ok_bind, hzq.proved, ok_bind, hzt.proved, ok_bind,
    openAt_eq hadvised.lengthA hsumA.challenges, ok_bind, openAt_eq hadvised.lengthB hsumB.challenges, ok_bind,
    openAt_eq hadvised.lengthA hzq.point, ok_bind, openAt_eq hadvised.lengthA hzq.challenges, ok_bind,
    openAt_eq hadvised.lengthB hzt.point, ok_bind, openAt_eq hadvised.lengthB hzt.challenges, ok_bind,
    openAt_eq hmlen hzt.point, ok_bind, hquery, ok_bind, htable]
  rfl

theorem CommittedDone.accepts (hideal : Ideal pcs committed) (h : Answered lq lt queryCols tableCols)
    (hmlen : m.length = 2 ^ lt)
    (hbound : bindCommitted (queryCols.map pcs.commit) (tableCols.map pcs.commit) (pcs.commit m) tr = bound)
    (hdone : CommittedDone pcs lq lt queryCols tableCols m a b bound.1.1 bound.1.2 scSumA scSumB scQ
      scT cha chb r2 ch2 r3
      ch3 bound.2 tr') : verifyCommittedLookup (2 ^ lq) (2 ^ lt)
      (committedProof pcs queryCols tableCols m a b scSumA scSumB scQ scT cha chb r2 ch2 r3 ch3) tr = .ok tr' := by
  obtain ⟨hadvised, finA, finB, trA, trB, tr2, hsumA, hsumB, hzq, hzt⟩ := hdone
  obtain ⟨proof, hproof⟩ : ∃ proof, proof
    = committedProof pcs queryCols tableCols m a b scSumA scSumB scQ scT cha chb r2 ch2 r3 ch3 := ⟨_, rfl⟩
  have hopens : Opens proof cha chb r2 ch2 r3 ch3 := by
    rw [hproof]
    exact ⟨checkOpen_opening hideal hadvised.lengthA hsumA.challenges,
      checkOpen_opening hideal hadvised.lengthA hzq.point,
      checkOpen_opening hideal hadvised.lengthA hzq.challenges,
        checkOpen_opening hideal hadvised.lengthB hsumB.challenges,
      checkOpen_opening hideal hadvised.lengthB hzt.point, checkOpen_opening hideal hadvised.lengthB hzt.challenges,
      checkOpen_opening hideal hmlen hzt.point, all_checkOpen hideal h.query.2 hzq.challenges,
      all_checkOpen hideal h.table.2 hzt.challenges⟩
  have hcounts : ¬ (proof.queryCh2.length ≠ proof.commQuery.length ∨ proof.tableCh3.length
    ≠ proof.commTable.length) := by
    rw [hproof, committedProof, List.length_map, List.length_map, List.length_map, List.length_map]
    exact not_or.mpr ⟨not_not.mpr rfl, not_not.mpr rfl⟩
  have hsumAv : verifySum proof.scSumA proof.sum proof.aCha.value (absorbSum proof.commA proof.commB proof.sum bound.2)
      = .ok (cha, trA) := by
    rw [hproof]
    exact hsumA.verified
  have hsumBv : verifySum proof.scSumB proof.sum proof.bChb.value trA = .ok (chb, trB) := by
    rw [hproof]
    show verifySum scSumB a.sum (mle b chb) trA = _
    rw [hadvised.sum, hsumB.verified]
  have hzqv : verifyZeroOpened (label "clk.r2") (2 ^ lq) (bound.1.2 * proof.aR2.value - 1) proof.aCh2.value
      (foldValues (proof.queryCh2.map (·.value)) bound.1.1) proof.scQ trB = .ok ((r2, ch2), tr2) := by
    rw [hproof]
    show verifyZeroOpened _ _ (bound.1.2 * mle a r2 - 1) (mle a ch2)
      (foldValues ((queryCols.map fun col => opening pcs col ch2).map (·.value)) bound.1.1) scQ trB = _
    rw [foldValues_openings h.query hzq.challenges]
    exact verifyZeroOpened_complete hzq hadvised.balanced.query rfl (ext_const r2 1).symm
  have hztv : verifyZeroOpened (label "clk.r3") (2 ^ lt)
    (bound.1.2 * proof.bR3.value - proof.mR3.value) proof.bCh3.value
      (foldValues (proof.tableCh3.map (·.value)) bound.1.1) proof.scT tr2 = .ok ((r3, ch3), tr') := by
    rw [hproof]
    show verifyZeroOpened _ _ (bound.1.2 * mle b r3 - mle m r3) (mle b ch3)
      (foldValues ((tableCols.map fun col => opening pcs col ch3).map (·.value)) bound.1.1) scT tr2 = _
    rw [foldValues_openings h.table hzt.challenges]
    exact verifyZeroOpened_complete hzt hadvised.balanced.table rfl rfl
  have hbind : bindCommitted proof.commQuery proof.commTable proof.commM tr = bound := by
    rw [hproof]
    exact hbound
  rw [← hproof, verifyCommittedLookup, guarded_of_not (not_or.mpr ⟨not_not.mpr (isPowerOfTwo_pow lq),
    not_not.mpr (isPowerOfTwo_pow lt)⟩), guarded_of_not hcounts]
  show (verifySum proof.scSumA proof.sum proof.aCha.value (absorbSum proof.commA proof.commB proof.sum
    (bindCommitted proof.commQuery proof.commTable proof.commM tr).2) >>= _) = _
  rw [hbind, hsumAv, ok_bind, hsumBv, ok_bind, hzqv, ok_bind, hztv, ok_bind, revertIf_of_not _ (not_not.mpr hopens)]
  rfl

end Run

/-- **COMPLETE, COMMITTED**: likewise with every table committed. -/
theorem committedLookup_complete (hnodes : Nodes F 4) (hideal : Ideal pcs committed)
    (h : Answered lq lt queryCols tableCols) (tr : Transcript F) :
    ∃ m, multiplicities (queryCols.headD []) (tableCols.headD []) = .ok m
      ∧ (Misses (bindCommitted (queryCols.map pcs.commit) (tableCols.map pcs.commit) (pcs.commit m) tr).1.2
          (foldColumns queryCols
            (bindCommitted (queryCols.map pcs.commit) (tableCols.map pcs.commit) (pcs.commit m) tr).1.1) →
        Misses (bindCommitted (queryCols.map pcs.commit) (tableCols.map pcs.commit) (pcs.commit m) tr).1.2
          (foldColumns tableCols
            (bindCommitted (queryCols.map pcs.commit) (tableCols.map pcs.commit) (pcs.commit m) tr).1.1) →
        ∃ proof tr', proveCommittedLookup pcs queryCols tableCols tr = .ok (proof, tr')
          ∧ verifyCommittedLookup (2 ^ lq) (2 ^ lt) proof tr = .ok tr') := by
  obtain ⟨m, hm, hmlen, hcount⟩ := h.multiplicities
  refine ⟨m, hm, fun hq ht => ?_⟩
  obtain ⟨bound, hbound⟩ : ∃ bound,
    bindCommitted (queryCols.map pcs.commit) (tableCols.map pcs.commit) (pcs.commit m) tr = bound := ⟨_, rfl⟩
  rw [hbound] at hq ht
  obtain ⟨a, b, hadvised⟩ := h.advised hmlen hcount hq ht
  have hnodes2 : Nodes F 2 := hnodes.mono (by decide)
  obtain ⟨scSumA, cha, finA, trA, hsumA⟩ := sum_complete hnodes2 hadvised.lengthA
    (absorbSum (pcs.commit a) (pcs.commit b) a.sum bound.2)
  obtain ⟨scSumB, chb, finB, trB, hsumB⟩ := sum_complete hnodes2 hadvised.lengthB trA
  obtain ⟨scQ, r2, ch2, tr2, hzq⟩ := zeroCheck_complete hnodes hadvised.lengthA (h.query.length_fold bound.1.1)
    (label "clk.r2") trB
  obtain ⟨scT, r3, ch3, tr3, hzt⟩ := zeroCheck_complete hnodes hadvised.lengthB (h.table.length_fold bound.1.1)
    (label "clk.r3") tr2
  have hdone : CommittedDone pcs lq lt queryCols tableCols m a b bound.1.1 bound.1.2 scSumA scSumB
    scQ scT cha chb r2 ch2 r3
      ch3 bound.2 tr3 := ⟨hadvised, finA, finB, trA, trB, tr2, hsumA, hsumB, hzq, hzt⟩
  exact ⟨_, tr3, hdone.proves h hm hmlen hbound, hdone.accepts hideal h hmlen hbound⟩

end Committed

end LookupComplete
