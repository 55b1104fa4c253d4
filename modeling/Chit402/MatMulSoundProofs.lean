import Chit402.MatMulProofs

/-! # The matrix multiplication argument is complete and sound

    All four forms reduce to one statement about functions of a row and a
    column: `Ĉ(rx, ry)` is the sum over the inner dimension of
    `Â(rx, l)·B̂(l, ry)`.  Where the product is not `C`, the two sides differ
    at most points, and then the sumcheck fails at most challenges. -/

namespace MatMulSound

open ExceptFlow Multilinear Mle FiatShamir Sumcheck SumcheckSound ChallengeGame MatMul Finset

variable {F : Type}

/-! ## Drawing the points -/

theorem drawPoints_eq (lm ln : ℕ) (tr : Transcript F) : drawPoints (2 ^ lm) (2 ^ ln) tr
      = .ok (((drawPoint lm (label "rx") tr).1, (drawPoint ln (label "ry") (drawPoint lm (label "rx") tr).2).1),
        (drawPoint ln (label "ry") (drawPoint lm (label "rx") tr).2).2) := by
  rw [drawPoints, log2Exact_pow, ok_bind]
  show (log2Exact (2 ^ ln) >>= _) = _
  rw [log2Exact_pow]
  rfl

theorem drawPoints_ok (lm ln : ℕ) (tr : Transcript F) :
    ∃ rx ry tr', drawPoints (2 ^ lm) (2 ^ ln) tr = .ok ((rx, ry), tr') ∧ rx.length = lm ∧ ry.length = ln :=
  ⟨_, _, _, drawPoints_eq lm ln tr, length_drawPoint .., length_drawPoint ..⟩

section Lengths

theorem length_pow {t : List F} {m n : ℕ} (h : t.length = 2 ^ m * 2 ^ n) : t.length = 2 ^ (m + n) := by
  rw [h, pow_add]

theorem vars_of_length {t r q : List F} {m n : ℕ} (ht : t.length = 2 ^ m * 2 ^ n) (hr : r.length = m)
    (h : t.length = 2 ^ (r ++ q).length) : q.length = n := by
  rw [length_pow ht, List.length_append, hr] at h
  exact (Nat.add_left_cancel (Nat.pow_right_injective (le_refl 2) h)).symm

end Lengths

variable [Field F]

/-! ## Row-major tables -/

section Tables

theorem row_major_div {n i j : ℕ} (hj : j < n) : (i * n + j) / n = i := by
  rw [Nat.mul_comm, Nat.mul_add_div (Nat.lt_of_le_of_lt (Nat.zero_le j) hj), Nat.div_eq_of_lt hj, Nat.add_zero]

theorem row_major_mod {n i j : ℕ} (hj : j < n) : (i * n + j) % n = j := by
  rw [Nat.mul_comm, Nat.mul_add_mod, Nat.mod_eq_of_lt hj]

theorem row_major_lt {m n i j : ℕ} (hi : i < m) (hj : j < n) : i * n + j < m * n :=
  calc i * n + j < i * n + n := Nat.add_lt_add_left hj _
    _ = (i + 1) * n := (Nat.succ_mul i n).symm
    _ ≤ m * n := Nat.mul_le_mul_right n hi

theorem entry_product {m k n i j : ℕ} (a b : List F) (hi : i < m) (hj : j < n) :
    entry (product m k n a b) (i * n + j) = ∑ l ∈ range k, entry a (i * k + l) * entry b (l * n + j) := by
  rw [product, entry_map_range _ (row_major_lt hi hj), row_major_div hj, row_major_mod hj]

theorem entry_transposeRm {rows cols l j : ℕ} (mat : List F) (hl : l < cols) (hj : j < rows) :
    entry (transposeRm mat rows cols) (l * rows + j) = entry mat (j * cols + l) := by
  rw [transposeRm, entry_map_range _ (lt_of_lt_of_eq (row_major_lt hl hj) (Nat.mul_comm _ _)), row_major_div hj,
    row_major_mod hj]

theorem length_product (m k n : ℕ) (a b : List F) : (product m k n a b).length = m * n := by
  rw [product, List.length_map, List.length_range]

theorem length_transposeRm (mat : List F) (rows cols : ℕ) : (transposeRm mat rows cols).length = rows * cols := by
  rw [transposeRm, List.length_map, List.length_range]

/-- The product of row-major tables `m × k` and `n × k`, the second transposed. -/
def productT (m k n : ℕ) (a b : List F) : List F :=
  (List.range (m * n)).map fun x => ∑ l ∈ range k, entry a (x / n * k + l) * entry b (x % n * k + l)

theorem product_transposeRm (m k n : ℕ) (a b : List F) : product m k n a (transposeRm b n k) = productT m k n a b := by
  refine List.map_congr_left fun x hx => sum_congr rfl fun l hl => ?_
  have hn : 0 < n := by
    rcases Nat.eq_zero_or_pos n with rfl | hn
    · rw [Nat.mul_zero] at hx
      exact absurd hx List.not_mem_nil
    · exact hn
  rw [entry_transposeRm b (mem_range.mp hl) (Nat.mod_lt x hn)]

/-- A table by rows and columns, `n` to a row. -/
def grid (t : List F) (n i j : ℕ) : F := entry t (i * n + j)

/-- A table that is not the one listed differs from it in some row and column. -/
theorem exists_of_ne {m n : ℕ} {f : ℕ → ℕ → F} {c : List F} (hc : c.length = m * n)
    (hne : c ≠ (List.range (m * n)).map fun x => f (x / n) (x % n)) : ∃ i < m, ∃ j < n, grid c n i j ≠ f i j := by
  by_contra hall
  push Not at hall
  refine hne (table_ext (by rw [hc, List.length_map, List.length_range]) fun x hx => ?_)
  rw [hc] at hx
  have hn : 0 < n := by
    rcases Nat.eq_zero_or_pos n with rfl | hn
    · exact absurd hx (Nat.not_lt_zero x)
    · exact hn
  have hij : x / n * n + x % n = x := Nat.div_add_mod' x n
  have hentry := hall _ (Nat.div_lt_of_lt_mul (lt_of_lt_of_eq hx (Nat.mul_comm m n))) _ (Nat.mod_lt x hn)
  rw [grid, hij] at hentry
  rw [hentry, entry_map_range _ hx]

theorem sum_eqWeights {s : ℕ} {r : List F} (h : r.length = s) (f : ℕ → F) :
    ∑ i ∈ range (2 ^ s), entry (eqWeights r) i * f i = ext r f := by
  rw [ext_eq_sum, h]
  exact sum_congr rfl fun i hi => by rw [eqWeights_entry (by rw [h]; exact mem_range.mp hi)]

theorem mle_append {s : ℕ} (t r : List F) {q : List F} (hq : q.length = s) :
    mle t (r ++ q) = ext r fun i => ext q (grid t (2 ^ s) i) := by
  rw [mle, ext_append, hq]
  rfl

theorem mle_append_comm {s : ℕ} (t r : List F) {q : List F} (hq : q.length = s) :
    mle t (r ++ q) = ext q fun l => ext r fun i => grid t (2 ^ s) i l := by
  rw [mle_append t r hq, ext_comm]

theorem cHat_eq {lm ln : ℕ} {c rx ry : List F} (hc : c.length = 2 ^ lm * 2 ^ ln) (hrx : rx.length = lm)
    (hry : ry.length = ln) : cHat c (2 ^ lm) (2 ^ ln) (eqWeights rx) (eqWeights ry) = .ok (mle c (rx ++ ry)) := by
  have hrow : ∀ i, ∑ j ∈ range (2 ^ ln), entry (eqWeights ry) j * entry c (i * 2 ^ ln + j)
    = ext ry (grid c (2 ^ ln) i) :=
    fun i => sum_eqWeights hry _
  rw [cHat, guarded_of_not (Nat.not_lt.mpr (le_of_eq hc.symm))]
  simp only [hrow]
  rw [sum_eqWeights hrx, mle_append c rx hry]

end Tables

/-! ## Completeness -/

section Complete

/-- An instance of dimensions `2 ^ lm`, `2 ^ lk` and `2 ^ ln`. -/
structure Fits (lm lk ln : ℕ) (mm : Instance F) : Prop where
  rows : mm.m = 2 ^ lm
  inner : mm.k = 2 ^ lk
  columns : mm.n = 2 ^ ln
  result : mm.c.length = 2 ^ lm * 2 ^ ln

theorem fits_new (lm lk ln : ℕ) (a b : List F) :
    Fits lm lk ln ⟨2 ^ lm, 2 ^ lk, 2 ^ ln, a, b, product (2 ^ lm) (2 ^ lk) (2 ^ ln) a b⟩ :=
  ⟨rfl, rfl, rfl, length_product ..⟩

variable {lm lk ln : ℕ} {mm : Instance F}

theorem rowFold_entry (h : Fits lm lk ln mm) {rx : List F} (hrx : rx.length = lm) {l : ℕ} (hl : l < 2 ^ lk) :
    entry (rowFold mm rx) l = ext rx fun i => grid mm.a (2 ^ lk) i l := by
  rw [rowFold, h.rows, h.inner, entry_map_range _ hl, sum_eqWeights hrx]
  rfl

theorem columnFold_entry (h : Fits lm lk ln mm) {ry : List F} (hry : ry.length = ln) {l : ℕ} (hl : l < 2 ^ lk) :
    entry (columnFold mm ry) l = ext ry (grid mm.b (2 ^ ln) l) := by
  rw [columnFold, h.columns, h.inner, entry_map_range _ hl, sum_eqWeights hry]
  rfl

theorem ext_product {k : ℕ} (rx ry : List F) (a b : ℕ → ℕ → F) :
    (ext rx fun i => ext ry fun j => ∑ l ∈ range k, a i l * b l j)
      = ∑ l ∈ range k, (ext rx fun i => a i l) * ext ry (b l) := by
  have hrow : ∀ i, (ext ry fun j => ∑ l ∈ range k, a i l * b l j) = ∑ l ∈ range k, a i l * ext ry (b l) := by
    intro i
    rw [ext_sum]
    exact sum_congr rfl fun l _ => ext_mul ..
  simp only [hrow]
  rw [ext_sum]
  refine sum_congr rfl fun l _ => ?_
  simp only [mul_comm _ (ext ry (b l))]
  exact ext_mul ..

theorem mle_product {lm lk ln : ℕ} (a b : List F) {rx ry : List F} (hrx : rx.length = lm) (hry : ry.length = ln) :
    mle (product (2 ^ lm) (2 ^ lk) (2 ^ ln) a b) (rx ++ ry)
      = ∑ l ∈ range (2 ^ lk), (ext rx fun i => grid a (2 ^ lk) i l) * ext ry (grid b (2 ^ ln) l) := by
  have hgrid : (ext rx fun i => ext ry (grid (product (2 ^ lm) (2 ^ lk) (2 ^ ln) a b) (2 ^ ln) i))
      = ext rx fun i => ext ry fun j => ∑ l ∈ range (2 ^ lk), grid a (2 ^ lk) i l * grid b (2 ^ ln) l j := by
    refine ext_congr fun i hi => ext_congr fun j hj => ?_
    rw [hrx] at hi
    rw [hry] at hj
    exact entry_product _ _ hi hj
  rw [mle_append _ _ hry, hgrid, ext_product]

theorem length_rowFold (h : Fits lm lk ln mm) (rx : List F) : (rowFold mm rx).length = 2 ^ lk := by
  rw [rowFold, List.length_map, List.length_range, h.inner]

theorem length_columnFold (h : Fits lm lk ln mm) (ry : List F) : (columnFold mm ry).length = 2 ^ lk := by
  rw [columnFold, List.length_map, List.length_range, h.inner]

theorem cubeSum_folds (h : Fits lm lk ln mm) {rx ry : List F} (hrx : rx.length = lm) (hry : ry.length = ln) :
    cubeSum lk [entry (rowFold mm rx), entry (columnFold mm ry)]
      = mle (product mm.m mm.k mm.n mm.a mm.b) (rx ++ ry) := by
  rw [h.rows, h.inner, h.columns, mle_product mm.a mm.b hrx hry]
  refine sum_congr rfl fun l hl => ?_
  rw [List.map_cons, List.map_cons, List.map_nil, List.prod_cons, List.prod_cons, List.prod_nil, mul_one,
    rowFold_entry h hrx (mem_range.mp hl), columnFold_entry h hry (mem_range.mp hl)]

variable [DecidableEq F]

/-- What an honest run of the core ends with. -/
structure CoreDone (lk ln : ℕ) (mm : Instance F) (rx ry : List F) (tr : Transcript F) (proof : MatMulProof F)
    (ch : List F) (tr' : Transcript F) : Prop where
  proved : proveCore mm rx ry tr = .ok ((proof, ch), tr')
  point : ch.length = lk
  claim : proof.claim = mle mm.c (rx ++ ry)
  fFinal : proof.fFinal = mle mm.a (rx ++ ch)
  gFinal : proof.gFinal = ext ch fun l => ext ry (grid mm.b (2 ^ ln) l)
  verified : ∀ claimed, claimed = .ok () → verifyReduction rx ry proof claimed tr = .ok (ch, tr')

/-- **CORE**: the core proves, and the reduction accepts, at points where the result has
    the value of the product. -/
theorem core_complete (hnodes : Nodes F 3) (h : Fits lm lk ln mm) {rx ry : List F} (hrx : rx.length = lm)
    (hry : ry.length = ln) (hagrees : mle mm.c (rx ++ ry) = mle (product mm.m mm.k mm.n mm.a mm.b) (rx ++ ry))
    (tr : Transcript F) : ∃ proof ch tr', CoreDone lk ln mm rx ry tr proof ch tr' := by
  obtain ⟨sc, ch, tr', hprove, hch, hverify⟩ :=
    product_complete tr hnodes (length_rowFold h rx) (length_columnFold h ry)
  have hclaim : mle mm.c (rx ++ ry) = cubeSum lk [entry (rowFold mm rx), entry (columnFold mm ry)] :=
    hagrees.trans (cubeSum_folds h hrx hry).symm
  have hffinal : mle (rowFold mm rx) ch = mle mm.a (rx ++ ch) := by
    rw [mle_append_comm _ _ hch]
    refine ext_congr fun l hl => ?_
    rw [hch] at hl
    exact rowFold_entry h hrx hl
  have hgfinal : mle (columnFold mm ry) ch = ext ch fun l => ext ry (grid mm.b (2 ^ ln) l) := by
    refine ext_congr fun l hl => ?_
    rw [hch] at hl
    exact columnFold_entry h hry hl
  refine ⟨⟨rx, ry, mle mm.c (rx ++ ry), sc, mle (rowFold mm rx) ch, mle (columnFold mm ry) ch⟩, ch, tr', ?_⟩
  constructor
  case proved =>
    rw [proveCore, h.rows, h.columns, cHat_eq h.result hrx hry, ok_bind, hprove]
    rfl
  case point => exact hch
  case claim => rfl
  case fFinal => exact hffinal
  case gFinal => exact hgfinal
  case verified =>
    intro claimed hclaimed
    rw [verifyReduction, guarded_of_not (not_or.mpr ⟨not_not.mpr rfl, not_not.mpr rfl⟩), hclaimed, ok_bind]
    show (verifyProduct sc (mle mm.c (rx ++ ry)) tr >>= _) = _
    rw [hclaim, hverify, ok_bind, revertIf_of_not _ (not_not.mpr rfl)]
    rfl

end Complete

/-! ## Soundness -/

section Game

open Polynomial

variable [Fintype F]

/-- **PRODUCT GAME**: where the product of `a` and `b` is not `c`, a verifier that accepts
    only when the sumcheck over the inner dimension convinces rarely accepts. -/
theorem product_game {lm lk ln : ℕ} {a b c : ℕ → ℕ → F} {i j : ℕ} (hi : i < 2 ^ lm) (hj : j < 2 ^ ln)
    (hne : c i j ≠ ∑ l ∈ range (2 ^ lk), a i l * b l j) {accepts : List F → List F → List F → Prop}
    {g : List F → List F → List F → F[X]} (hg : ∀ rx ry before, (g rx ry before).natDegree ≤ 2)
    (haccepts : ∀ rx ry ch, rx.length = lm → ry.length = ln → ch.length = lk → accepts rx ry ch →
      Convinces (g rx ry) (ext rx fun i => ext ry (c i)) [fun l => ext rx fun i => a i l, fun l => ext ry (b l)] ch) :
    fraction (fun ω : (Fin lm → F) × (Fin ln → F) × (Fin lk → F) =>
      accepts (List.ofFn ω.1) (List.ofFn ω.2.1) (List.ofFn ω.2.2)) ≤ (lm + ln + 2 * lk : ℕ) / Fintype.card F := by
  obtain ⟨d, hd⟩ : ∃ d : ℕ → ℕ → F, ∀ i j, d i j = c i j - ∑ l ∈ range (2 ^ lk), a i l * b l j := ⟨_, fun _ _ => rfl⟩
  have hpos : ∀ x : ℕ, (0 : ℚ) ≤ x / Fintype.card F := fun x => div_nonneg (Nat.cast_nonneg _) (Nat.cast_nonneg _)
  have hdij : d i j ≠ 0 := by
    rw [hd]
    exact sub_ne_zero.mpr hne
  -- a row point at which column `j` of the difference does not vanish, then a column point
  have hrow := fraction_ext_zero_le (n := lm) (f := fun i => d i j) hi hdij
  have hbound : (lm : ℚ) / Fintype.card F + (ln / Fintype.card F + (lk * 2 : ℕ) / Fintype.card F)
      = (lm + ln + 2 * lk : ℕ) / Fintype.card F := by
    rw [← add_div, ← add_div, Nat.mul_comm lk 2]
    push_cast
    rw [add_assoc]
  rw [← hbound]
  refine fraction_escape hrow (add_nonneg (hpos ln) (hpos (lk * 2))) fun u hu => ?_
  have hcolumn := fraction_ext_zero_le (n := ln) (f := fun j => ext (List.ofFn u) fun i => d i j) hj hu
  refine fraction_escape hcolumn (hpos (lk * 2)) fun w hw => ?_
  have hclaim : (ext (List.ofFn u) fun i => ext (List.ofFn w) (c i))
      ≠ cubeSum lk [fun l => ext (List.ofFn u) fun i => a i l, fun l => ext (List.ofFn w) (b l)] := by
    intro heq
    refine hw ?_
    have hsum : cubeSum lk [fun l => ext (List.ofFn u) fun i => a i l, fun l => ext (List.ofFn w) (b l)]
        = ext (List.ofFn u) fun i => ext (List.ofFn w) fun j => ∑ l ∈ range (2 ^ lk), a i l * b l j := by
      rw [ext_product]
      refine sum_congr rfl fun l _ => ?_
      rw [List.map_cons, List.map_cons, List.map_nil, List.prod_cons, List.prod_cons, List.prod_nil, mul_one]
    rw [hsum] at heq
    rw [ext_comm]
    simp only [hd, ext_sub]
    rw [ext_comm, ext_comm (List.ofFn w) (List.ofFn u), heq, sub_self]
  refine le_trans (fraction_mono fun v hv => ?_) (sumcheck_sound (hg (List.ofFn u) (List.ofFn w)) (le_refl 2) hclaim)
  exact haccepts _ _ _ (List.length_ofFn) (List.length_ofFn) (List.length_ofFn) hv

end Game

/-! ## Provers, and what their proofs have to show -/

section Forms

/-- A prover.  A round depends on the challenges before it; what the transcript never
    absorbs may depend on all of them. -/
structure Prover (F : Type) where
  rounds : List F → Evals3 F
  count : List F → ℕ
  rx : List F → List F
  ry : List F → List F
  claim : List F → F
  fFinal : List F → F
  gFinal : List F → F

/-- The proof at the challenges given. -/
def Prover.proof (P : Prover F) (rx ry ch : List F) : MatMulProof F where
  rx := P.rx (rx ++ (ry ++ ch))
  ry := P.ry (rx ++ (ry ++ ch))
  claim := P.claim (rx ++ (ry ++ ch))
  sumcheck := ⟨messages (fun before => P.rounds (rx ++ (ry ++ before))) (P.count (rx ++ (ry ++ ch))) ch⟩
  fFinal := P.fFinal (rx ++ (ry ++ ch))
  gFinal := P.gFinal (rx ++ (ry ++ ch))

theorem drawPoints_draws {lm ln : ℕ} {tr : Transcript F} {rx ry ch : List F} (hdraws : Draws tr (rx ++ (ry ++ ch)))
    (hrx : rx.length = lm) (hry : ry.length = ln) :
    ∃ tr', drawPoints (2 ^ lm) (2 ^ ln) tr = .ok ((rx, ry), tr') ∧ Draws tr' ch := by
  obtain ⟨hrows, hnext⟩ := hdraws.drawPoint (label "rx")
  obtain ⟨hcolumns, hdone⟩ := hnext.drawPoint (label "ry")
  rw [hrx] at hrows hcolumns hdone
  rw [hry] at hcolumns hdone
  refine ⟨_, ?_, hdone⟩
  rw [drawPoints_eq, hrows, hcolumns]

variable [DecidableEq F]

/-- A reduction that goes through at the challenges given convinces. -/
theorem reduction_convinces (hnodes : Nodes F 3) {P : Prover F} {rx ry ch ch' : List F} {claimed : Except Abort Unit}
    {tr tr' : Transcript F} (hdraws : Draws tr ch)
    (h : verifyReduction rx ry (P.proof rx ry ch) claimed tr = .ok (ch', tr')) (hlen : ch'.length = ch.length) :
    claimed = .ok () ∧ ch' = ch
      ∧ ∀ fs : List (ℕ → F), (P.proof rx ry ch).fFinal * (P.proof rx ry ch).gFinal = (fs.map (ext ch)).prod →
        Convinces (fun before => triplePoly (P.rounds (rx ++ (ry ++ before)))) (P.proof rx ry ch).claim fs ch := by
  rw [verifyReduction, guarded_iff] at h
  obtain ⟨⟨⟩, hclaimed, h⟩ := bind_iff.mp h.2
  obtain ⟨⟨⟨r, red⟩, tr1⟩, hverify, h⟩ := bind_iff.mp h
  rw [guarded_iff, not_not] at h
  obtain ⟨hred, h⟩ := h
  cases h
  have hcount : P.count (rx ++ (ry ++ ch)) = ch.length := by
    have hrounds := verifyRounds_length hverify
    rw [hlen] at hrounds
    exact (length_messages (fun before => P.rounds (rx ++ (ry ++ before))) _ ch).symm.trans hrounds.symm
  have hmessages : (P.proof rx ry ch).sumcheck.roundEvals
      = messages (fun before => P.rounds (rx ++ (ry ++ before))) ch.length ch := by
    rw [← hcount]
    rfl
  rw [verifyProduct, hmessages] at hverify
  have hall : Draws tr (ch ++ []) := by
    rw [List.append_nil]
    exact hdraws
  obtain ⟨hch, -, hconvinces⟩ := verifyRounds_convinces tripleFormat_quiet
    (fun before => tripleFormat_sends hnodes (P.rounds (rx ++ (ry ++ before)))) hall hverify
  exact ⟨hclaimed, hch, fun fs hfs => hconvinces fs (hred.trans hfs)⟩

/-- The three evaluations a form checks, at the challenges of its sumcheck. -/
structure Checked (a b c : ℕ → ℕ → F) (rx ry ch : List F) (proof : MatMulProof F) : Prop where
  claim : proof.claim = ext rx fun i => ext ry (c i)
  fFinal : proof.fFinal = ext ch fun l => ext rx fun i => a i l
  gFinal : proof.gFinal = ext ch fun l => ext ry (b l)

/-- A reduction whose evaluations were checked. -/
def Reduced (lm lk ln : ℕ) (a b c : ℕ → ℕ → F) (P : Prover F) (rx ry ch : List F) : Prop :=
  ∃ claimed tr ch' tr', Draws tr ch ∧ verifyReduction rx ry (P.proof rx ry ch) claimed tr = .ok (ch', tr')
    ∧ ch'.length = lk ∧ (rx.length = lm → ry.length = ln → claimed = .ok () →
      Checked a b c rx ry ch' (P.proof rx ry ch))

variable [Fintype F]

theorem reduced_sound (hnodes : Nodes F 3) {lm lk ln : ℕ} {a b c : ℕ → ℕ → F} {i j : ℕ} (hi : i < 2 ^ lm)
    (hj : j < 2 ^ ln) (hne : c i j ≠ ∑ l ∈ range (2 ^ lk), a i l * b l j) (P : Prover F) :
    fraction (fun ω : (Fin lm → F) × (Fin ln → F) × (Fin lk → F) =>
      Reduced lm lk ln a b c P (List.ofFn ω.1) (List.ofFn ω.2.1) (List.ofFn ω.2.2))
    ≤ (lm + ln + 2 * lk : ℕ) / Fintype.card F := by
  refine product_game hi hj hne (fun rx ry before => triplePoly_natDegree_le (P.rounds (rx ++ (ry ++ before)))) ?_
  intro rx ry ch hrx hry hch ⟨claimed, tr, ch', tr', hdraws, hverify, hlen, hchecked⟩
  obtain ⟨hclaimed, rfl, hconvinces⟩ := reduction_convinces hnodes hdraws hverify (hlen.trans hch.symm)
  have hchecked := hchecked hrx hry hclaimed
  rw [← hchecked.claim]
  refine hconvinces _ ?_
  rw [hchecked.fFinal, hchecked.gFinal, List.map_cons, List.map_cons, List.map_nil, List.prod_cons, List.prod_cons,
    List.prod_nil, mul_one]

end Forms

/-! ## The four forms -/

section Pcs

/-- **IDEAL COMMITMENTS**: a commitment is to one table, and an opening is accepted exactly
    when the point has the table's variables and the value is its extension there. -/
structure Ideal (pcs : Pcs F) (committed : pcs.Comm → List F) : Prop where
  commits : ∀ (t : List F) (s : ℕ), t.length = 2 ^ s → committed (pcs.commit t) = t
  verifies : ∀ comm point value opening, pcs.verify comm point value opening = true ↔
    (committed comm).length = 2 ^ point.length ∧ value = mle (committed comm) point

variable {pcs : Pcs F} {committed : pcs.Comm → List F}

theorem Ideal.verify_commit (h : Ideal pcs committed) {t : List F} {s : ℕ} (ht : t.length = 2 ^ s) {point : List F}
    {value : F} {opening : pcs.Opening} :
    pcs.verify (pcs.commit t) point value opening = true ↔ s = point.length ∧ value = mle t point := by
  rw [h.verifies, h.commits t s ht, ht]
  refine and_congr_left fun _ => ⟨fun hpow => Nat.pow_right_injective (le_refl 2) hpow, fun hs => by rw [hs]⟩

end Pcs

section Sound

variable {commitTable : List F → List UInt8} {lm lk ln : ℕ} {a b c rx ry ch : List F} {P : Prover F}

variable [DecidableEq F]

theorem checkClaim_ok (hc : c.length = 2 ^ lm * 2 ^ ln) (hrx : rx.length = lm) (hry : ry.length = ln) {claim : F}
    (h : checkClaim c (2 ^ lm) (2 ^ ln) rx ry claim = .ok ()) : claim = ext rx fun i => ext ry (grid c (2 ^ ln) i) := by
  rw [checkClaim, cHat_eq hc hrx hry, ok_bind, revertIf_ok_iff, not_not] at h
  rw [← h, mle_append c rx hry]

/-- The plain form reduces. -/
theorem verify_reduced (ha : a.length = 2 ^ lm * 2 ^ lk) (hc : c.length = 2 ^ lm * 2 ^ ln)
    (hrx : rx.length = lm) (hry : ry.length = ln) {tr' : Transcript F}
    (h : verify commitTable (2 ^ lm) (2 ^ lk) (2 ^ ln) a b c (P.proof rx ry ch) (replay (rx ++ (ry ++ ch))) = .ok tr') :
    Reduced lm lk ln (grid a (2 ^ lk)) (grid b (2 ^ ln)) (grid c (2 ^ ln)) P rx ry ch := by
  have hbound : Draws (bind commitTable (2 ^ lm) (2 ^ lk) (2 ^ ln) c (replay (rx ++ (ry ++ ch)))) (rx ++ (ry ++ ch)) :=
    replay_draws _
  obtain ⟨tr1, hpoints, hdraws⟩ := drawPoints_draws hbound hrx hry
  rw [verify, bindAndDraw, hpoints, ok_bind] at h
  obtain ⟨⟨ch', tr2⟩, hreduction, h⟩ := bind_iff.mp h
  obtain ⟨fExpected, hf, h⟩ := bind_iff.mp h
  obtain ⟨gExpected, hg, h⟩ := bind_iff.mp h
  rw [guarded_iff, not_or, not_not, not_not] at h
  obtain ⟨⟨hfFinal, hgFinal⟩, -⟩ := h
  obtain ⟨halen, rfl⟩ := mleEval_ok_iff.mp hf
  obtain ⟨-, rfl⟩ := mleEval_ok_iff.mp hg
  have hch' : ch'.length = lk := vars_of_length ha hrx halen
  refine ⟨_, tr1, ch', tr2, hdraws, hreduction, hch', fun _ _ hclaimed => ?_⟩
  constructor
  case claim => exact checkClaim_ok hc hrx hry hclaimed
  case fFinal => exact hfFinal.trans (mle_append_comm a rx hch')
  case gFinal => exact hgFinal.trans (mle_append b ch' hry)

variable {pcs : Pcs F} {committed : pcs.Comm → List F} (hideal : Ideal pcs committed)

include hideal

theorem verifyCommitted_reduced (ha : a.length = 2 ^ lm * 2 ^ lk) (hb : b.length = 2 ^ lk * 2 ^ ln)
    (hc : c.length = 2 ^ lm * 2 ^ ln) (hrx : rx.length = lm) (hry : ry.length = ln) {openA openB : pcs.Opening}
    {tr' : Transcript F} (h : verifyCommitted commitTable pcs (2 ^ lm) (2 ^ lk) (2 ^ ln) (pcs.commit a) (pcs.commit b) c
      ⟨P.proof rx ry ch, openA, openB⟩ (replay (rx ++ (ry ++ ch))) = .ok tr') :
    Reduced lm lk ln (grid a (2 ^ lk)) (grid b (2 ^ ln)) (grid c (2 ^ ln)) P rx ry ch := by
  have hbound : Draws (bindCommitted commitTable pcs (2 ^ lm) (2 ^ lk) (2 ^ ln) c (pcs.commit a) (pcs.commit b)
      (replay (rx ++ (ry ++ ch)))) (rx ++ (ry ++ ch)) := replay_draws _
  obtain ⟨tr1, hpoints, hdraws⟩ := drawPoints_draws hbound hrx hry
  rw [verifyCommitted, bindAndDrawCommitted, hpoints, ok_bind] at h
  obtain ⟨⟨ch', tr2⟩, hreduction, h⟩ := bind_iff.mp h
  rw [guarded_iff, guarded_iff, Bool.not_eq_false, Bool.not_eq_false,
    hideal.verify_commit (length_pow ha), hideal.verify_commit (length_pow hb)] at h
  obtain ⟨⟨hvars, hfFinal⟩, ⟨-, hgFinal⟩, -⟩ := h
  have hch' : ch'.length = lk := by
    rw [List.length_append, hrx] at hvars
    exact (Nat.add_left_cancel hvars).symm
  refine ⟨_, tr1, ch', tr2, hdraws, hreduction, hch', fun _ _ hclaimed => ?_⟩
  constructor
  case claim => exact checkClaim_ok hc hrx hry hclaimed
  case fFinal => exact hfFinal.trans (mle_append_comm a rx hch')
  case gFinal => exact hgFinal.trans (mle_append b ch' hry)

/-- The forms with every table committed reduce, when the point at which `B` is opened
    evaluates `B̂(l, ry)`. -/
theorem verifyIo_reduced {openPoint : List F → List F → List F} {bGrid : ℕ → ℕ → F} {vb : ℕ}
    (ha : a.length = 2 ^ lm * 2 ^ lk) (hb : b.length = 2 ^ vb) (hc : c.length = 2 ^ lm * 2 ^ ln)
    (hrx : rx.length = lm) (hry : ry.length = ln)
    (hpoint : ∀ ch : List F, ch.length = lk → mle b (openPoint ry ch) = ext ch fun l => ext ry (bGrid l))
    {openA openB openC : pcs.Opening} {tr' : Transcript F}
    (h : verifyIo pcs openPoint (2 ^ lm) (2 ^ lk) (2 ^ ln) (pcs.commit a) (pcs.commit b) (pcs.commit c)
      ⟨P.proof rx ry ch, openA, openB, openC⟩ (replay (rx ++ (ry ++ ch))) = .ok tr') :
    Reduced lm lk ln (grid a (2 ^ lk)) bGrid (grid c (2 ^ ln)) P rx ry ch := by
  have hbound : Draws (bindIo pcs (2 ^ lm) (2 ^ lk) (2 ^ ln) (pcs.commit a) (pcs.commit b) (pcs.commit c)
      (replay (rx ++ (ry ++ ch)))) (rx ++ (ry ++ ch)) := replay_draws _
  obtain ⟨tr1, hpoints, hdraws⟩ := drawPoints_draws hbound hrx hry
  rw [verifyIo, bindAndDrawIo, hpoints, ok_bind] at h
  obtain ⟨⟨ch', tr2⟩, hreduction, h⟩ := bind_iff.mp h
  rw [guarded_iff, guarded_iff, guarded_iff, Bool.not_eq_false, Bool.not_eq_false, Bool.not_eq_false,
    hideal.verify_commit (length_pow ha), hideal.verify_commit hb, hideal.verify_commit (length_pow hc)] at h
  obtain ⟨⟨hvars, hfFinal⟩, ⟨-, hgFinal⟩, ⟨-, hclaim⟩, -⟩ := h
  have hch' : ch'.length = lk := by
    rw [List.length_append, hrx] at hvars
    exact (Nat.add_left_cancel hvars).symm
  refine ⟨_, tr1, ch', tr2, hdraws, hreduction, hch', fun _ _ _ => ?_⟩
  constructor
  case claim => exact hclaim.trans (mle_append c rx hry)
  case fFinal => exact hfFinal.trans (mle_append_comm a rx hch')
  case gFinal => exact hgFinal.trans (hpoint ch' hch')

end Sound

/-! ## Over a prime field -/

section Prime

variable {p : ℕ} [Fact p.Prime]

/-- The challenges of a run, in the order drawn. -/
def challenges {lm ln lk : ℕ} (ω : (Fin lm → ZMod p) × (Fin ln → ZMod p) × (Fin lk → ZMod p)) : List (ZMod p) :=
  List.ofFn ω.1 ++ (List.ofFn ω.2.1 ++ List.ofFn ω.2.2)

def Prover.run {lm ln lk : ℕ} (P : Prover (ZMod p))
    (ω : (Fin lm → ZMod p) × (Fin ln → ZMod p) × (Fin lk → ZMod p)) : MatMulProof (ZMod p) :=
  P.proof (List.ofFn ω.1) (List.ofFn ω.2.1) (List.ofFn ω.2.2)

variable {lm lk ln : ℕ} {a b c : List (ZMod p)}

theorem exists_of_ne_product (hc : c.length = 2 ^ lm * 2 ^ ln) (hne : c ≠ product (2 ^ lm) (2 ^ lk) (2 ^ ln) a b) :
    ∃ i < 2 ^ lm, ∃ j < 2 ^ ln, grid c (2 ^ ln) i j ≠ ∑ l ∈ range (2 ^ lk), grid a (2 ^ lk) i l * grid b (2 ^ ln) l j :=
  exists_of_ne hc hne

theorem exists_of_ne_productT (hc : c.length = 2 ^ lm * 2 ^ ln) (hne : c ≠ productT (2 ^ lm) (2 ^ lk) (2 ^ ln) a b) :
    ∃ i < 2 ^ lm, ∃ j < 2 ^ ln, grid c (2 ^ ln) i j ≠ ∑ l ∈ range (2 ^ lk), grid a (2 ^ lk) i l * grid b (2 ^ lk) j l :=
  exists_of_ne hc hne

theorem accepted_sound (hp : 2 < p) (P : Prover (ZMod p)) {f g h : ℕ → ℕ → ZMod p}
    (hne : ∃ i < 2 ^ lm, ∃ j < 2 ^ ln, h i j ≠ ∑ l ∈ range (2 ^ lk), f i l * g l j)
    {accepts : (Fin lm → ZMod p) × (Fin ln → ZMod p) × (Fin lk → ZMod p) → Prop}
    (haccepts : ∀ ω, accepts ω → Reduced lm lk ln f g h P (List.ofFn ω.1) (List.ofFn ω.2.1) (List.ofFn ω.2.2)) :
    fraction accepts ≤ (lm + ln + 2 * lk : ℕ) / p := by
  obtain ⟨i, hi, j, hj, hij⟩ := hne
  have hsound := reduced_sound (nodes_zmod hp) hi hj hij P
  rw [ZMod.card] at hsound
  exact le_trans (fraction_mono haccepts) hsound

variable {pcs : Pcs (ZMod p)} {committed : pcs.Comm → List (ZMod p)}

/-! ## Honest proofs -/

theorem instance_new {m k n : ℕ} (ha : a.length = m * k) (hb : b.length = k * n) :
    Instance.new m k n a b = .ok ⟨m, k, n, a, b, product m k n a b⟩ := by
  rw [Instance.new, guarded_of_not (not_not.mpr ha), revertIf_of_not _ (not_not.mpr hb)]
  rfl

theorem checkClaim_of_claim {rx ry : List (ZMod p)} {claim : ZMod p} (hc : c.length = 2 ^ lm * 2 ^ ln)
    (hrx : rx.length = lm) (hry : ry.length = ln) (hclaim : claim = mle c (rx ++ ry)) :
    checkClaim c (2 ^ lm) (2 ^ ln) rx ry claim = .ok () := by
  rw [checkClaim, cHat_eq hc hrx hry, ok_bind, revertIf_of_not _ (not_not.mpr hclaim.symm)]

/-- The last checks of the plain form. -/
theorem verify_of_core {commitTable : List (ZMod p) → List UInt8} (mm : Instance (ZMod p)) {rx ry ch : List (ZMod p)}
    {tr tr1 tr2 : Transcript (ZMod p)} {proof : MatMulProof (ZMod p)}
    (hpoints : bindAndDraw commitTable (2 ^ lm) (2 ^ lk) (2 ^ ln) mm.c tr = .ok ((rx, ry), tr1)) (hrx : rx.length = lm)
    (hry : ry.length = ln) (hcore : CoreDone lk ln mm rx ry tr1 proof ch tr2) (ha : mm.a.length = 2 ^ lm * 2 ^ lk)
    (hb : mm.b.length = 2 ^ lk * 2 ^ ln) (hc : mm.c.length = 2 ^ lm * 2 ^ ln) :
    verify commitTable (2 ^ lm) (2 ^ lk) (2 ^ ln) mm.a mm.b mm.c proof tr = .ok tr2 := by
  have hgFinal : proof.gFinal = mle mm.b (ch ++ ry) := hcore.gFinal.trans (mle_append mm.b ch hry).symm
  have hfFinal : proof.fFinal = mle mm.a (rx ++ ch) := hcore.fFinal
  rw [verify, hpoints, ok_bind]
  show (verifyReduction rx ry proof _ tr1 >>= _) = _
  rw [hcore.verified _ (checkClaim_of_claim hc hrx hry hcore.claim), ok_bind]
  show (mleEval mm.a (rx ++ ch) >>= _) = _
  rw [mleEval_of_length (by rw [length_pow ha, List.length_append, hrx, hcore.point]), ok_bind,
    mleEval_of_length (by rw [length_pow hb, List.length_append, hry, hcore.point]), ok_bind,
    revertIf_of_not _ (not_or.mpr ⟨not_not.mpr hfFinal, not_not.mpr hgFinal⟩)]
  rfl

theorem prove_verify (hp : 2 < p) (commitTable : List (ZMod p) → List UInt8) (ha : a.length = 2 ^ lm * 2 ^ lk)
    (hb : b.length = 2 ^ lk * 2 ^ ln) (tr : Transcript (ZMod p)) :
    ∃ mm proof tr', Instance.new (2 ^ lm) (2 ^ lk) (2 ^ ln) a b = .ok mm ∧ prove commitTable mm tr = .ok (proof, tr')
      ∧ verify commitTable (2 ^ lm) (2 ^ lk) (2 ^ ln) a b mm.c proof tr = .ok tr' := by
  obtain ⟨rx, ry, tr1, hpoints, hrx, hry⟩ := drawPoints_ok lm ln
    (bind commitTable (2 ^ lm) (2 ^ lk) (2 ^ ln) (product (2 ^ lm) (2 ^ lk) (2 ^ ln) a b) tr)
  obtain ⟨proof, ch, tr2, hcore⟩ := core_complete (nodes_zmod hp) (fits_new lm lk ln a b) hrx hry rfl tr1
  refine ⟨_, proof, tr2, instance_new ha hb, ?_, ?_⟩
  · rw [prove, bindAndDraw, hpoints, ok_bind, hcore.proved]
    rfl
  · exact verify_of_core ⟨2 ^ lm, 2 ^ lk, 2 ^ ln, a, b, product (2 ^ lm) (2 ^ lk) (2 ^ ln) a b⟩
      hpoints hrx hry hcore ha hb
      (length_product ..)

theorem Ideal.accepts (h : Ideal pcs committed) {t point : List (ZMod p)} {value : ZMod p}
    {opening : pcs.Opening} {s : ℕ}
    (ht : t.length = 2 ^ s) (hs : s = point.length) (hvalue : value = mle t point) :
    ¬ pcs.verify (pcs.commit t) point value opening = false :=
  ne_false_of_eq_true ((h.verify_commit ht).mpr ⟨hs, hvalue⟩)

theorem proveCommitted_verify (hp : 2 < p) (commitTable : List (ZMod p) → List UInt8) (hideal : Ideal pcs committed)
    (ha : a.length = 2 ^ lm * 2 ^ lk) (hb : b.length = 2 ^ lk * 2 ^ ln) (tr : Transcript (ZMod p)) :
    ∃ mm proof tr', Instance.new (2 ^ lm) (2 ^ lk) (2 ^ ln) a b = .ok mm
      ∧ proveCommitted commitTable pcs mm tr = .ok ((proof, pcs.commit a, pcs.commit b), tr')
      ∧ verifyCommitted commitTable pcs (2 ^ lm) (2 ^ lk) (2 ^ ln) (pcs.commit a) (pcs.commit b) mm.c proof tr
        = .ok tr' := by
  obtain ⟨rx, ry, tr1, hpoints, hrx, hry⟩ :=
    drawPoints_ok lm ln (bindCommitted commitTable pcs (2 ^ lm) (2 ^ lk) (2 ^ ln)
    (product (2 ^ lm) (2 ^ lk) (2 ^ ln) a b) (pcs.commit a) (pcs.commit b) tr)
  obtain ⟨proof, ch, tr2, hcore⟩ := core_complete (nodes_zmod hp) (fits_new lm lk ln a b) hrx hry rfl tr1
  refine ⟨_, ⟨proof, pcs.open' a (rx ++ ch), pcs.open' b (ch ++ ry)⟩, tr2, instance_new ha hb, ?_, ?_⟩
  · rw [proveCommitted]
    show (bindAndDrawCommitted _ _ _ _ _ _ _ _ _ >>= _) = _
    rw [bindAndDrawCommitted, hpoints, ok_bind, hcore.proved]
    rfl
  · have hc : (product (2 ^ lm) (2 ^ lk) (2 ^ ln) a b).length = 2 ^ lm * 2 ^ ln := length_product ..
    have hopenB : proof.gFinal = mle b (ch ++ ry) := hcore.gFinal.trans (mle_append b ch hry).symm
    rw [verifyCommitted, bindAndDrawCommitted, hpoints, ok_bind]
    show (verifyReduction rx ry proof _ tr1 >>= _) = _
    rw [hcore.verified _ (checkClaim_of_claim hc hrx hry hcore.claim), ok_bind]
    show (revertIf (pcs.verify (pcs.commit a) (rx ++ ch) proof.fFinal _ = false) _ >>= _) = _
    rw [guarded_of_not (hideal.accepts (length_pow ha) (by rw [List.length_append, hrx, hcore.point]) hcore.fFinal),
      revertIf_of_not _ (hideal.accepts (length_pow hb) (by rw [List.length_append, hry, hcore.point]) hopenB)]
    rfl

/-- The last checks of both forms with every table committed. -/
theorem verifyIo_of_core {openPoint : List (ZMod p) → List (ZMod p) → List (ZMod p)} (hideal : Ideal pcs committed)
    (mm : Instance (ZMod p)) {b : List (ZMod p)} {vb : ℕ} {rx ry ch : List (ZMod p)} {tr tr1 tr2 : Transcript (ZMod p)}
    {proof : MatMulProof (ZMod p)} {openA openB openC : pcs.Opening}
    (hpoints : bindAndDrawIo pcs (2 ^ lm) (2 ^ lk) (2 ^ ln) (pcs.commit mm.a) (pcs.commit b) (pcs.commit mm.c) tr
      = .ok ((rx, ry), tr1)) (hrx : rx.length = lm) (hry : ry.length = ln)
    (hcore : CoreDone lk ln mm rx ry tr1 proof ch tr2) (ha : mm.a.length = 2 ^ lm * 2 ^ lk) (hb : b.length = 2 ^ vb)
    (hc : mm.c.length = 2 ^ lm * 2 ^ ln) (hvb : vb = (openPoint ry ch).length)
    (hopenB : proof.gFinal = mle b (openPoint ry ch)) :
    verifyIo pcs openPoint (2 ^ lm) (2 ^ lk) (2 ^ ln) (pcs.commit mm.a) (pcs.commit b) (pcs.commit mm.c)
      ⟨proof, openA, openB, openC⟩ tr = .ok tr2 := by
  rw [verifyIo, hpoints, ok_bind]
  show (verifyReduction rx ry proof _ tr1 >>= _) = _
  rw [hcore.verified _ rfl, ok_bind]
  show (revertIf (pcs.verify (pcs.commit mm.a) (rx ++ ch) proof.fFinal _ = false) _ >>= _) = _
  rw [guarded_of_not (hideal.accepts (length_pow ha) (by rw [List.length_append, hrx, hcore.point])
    hcore.fFinal), guarded_of_not (hideal.accepts hb hvb hopenB),
    revertIf_of_not _ (hideal.accepts (length_pow hc) (by rw [List.length_append, hrx, hry]) hcore.claim)]
  rfl

theorem proveCommittedIo_verify (hp : 2 < p) (hideal : Ideal pcs committed)
    (ha : a.length = 2 ^ lm * 2 ^ lk) (hb : b.length = 2 ^ lk * 2 ^ ln) (tr : Transcript (ZMod p)) :
    ∃ mm proof tr', Instance.new (2 ^ lm) (2 ^ lk) (2 ^ ln) a b = .ok mm
      ∧ proveCommittedIo pcs mm tr = .ok ((proof, pcs.commit a, pcs.commit b, pcs.commit mm.c), tr')
      ∧ verifyCommittedIo pcs (2 ^ lm) (2 ^ lk) (2 ^ ln) (pcs.commit a) (pcs.commit b) (pcs.commit mm.c) proof tr
        = .ok tr' := by
  obtain ⟨rx, ry, tr1, hpoints, hrx, hry⟩ := drawPoints_ok lm ln (bindIo pcs (2 ^ lm) (2 ^ lk) (2 ^ ln) (pcs.commit a)
    (pcs.commit b) (pcs.commit (product (2 ^ lm) (2 ^ lk) (2 ^ ln) a b)) tr)
  obtain ⟨proof, ch, tr2, hcore⟩ := core_complete (nodes_zmod hp)
    (fits_new lm lk ln a b) hrx hry rfl tr1
  refine ⟨_, ⟨proof, pcs.open' a (rx ++ ch), pcs.open' b (ch ++ ry),
    pcs.open' (product (2 ^ lm) (2 ^ lk) (2 ^ ln) a b) (rx ++ ry)⟩, tr2, instance_new ha hb, ?_, ?_⟩
  · rw [proveCommittedIo]
    show (bindAndDrawIo _ _ _ _ _ _ _ _ >>= _) = _
    rw [bindAndDrawIo, hpoints, ok_bind, hcore.proved]
    rfl
  · refine verifyIo_of_core hideal ⟨2 ^ lm, 2 ^ lk, 2 ^ ln, a, b,
      product (2 ^ lm) (2 ^ lk) (2 ^ ln) a b⟩ hpoints hrx hry hcore
      ha (length_pow hb) (length_product ..) ?_ ?_
    · rw [List.length_append, hry, hcore.point]
    · exact hcore.gFinal.trans (mle_append b ch hry).symm

theorem proveCommittedIoBt_verify (hp : 2 < p) (hideal : Ideal pcs committed)
    (ha : a.length = 2 ^ lm * 2 ^ lk) (hb : b.length = 2 ^ ln * 2 ^ lk) (tr : Transcript (ZMod p)) : ∃ proof tr',
      proveCommittedIoBt pcs a b (2 ^ lm) (2 ^ lk) (2 ^ ln) tr
        = .ok ((proof, pcs.commit a, pcs.commit b, pcs.commit (productT (2 ^ lm) (2 ^ lk) (2 ^ ln) a b)), tr')
      ∧ verifyCommittedIoBt pcs (2 ^ lm) (2 ^ lk) (2 ^ ln) (pcs.commit a) (pcs.commit b)
        (pcs.commit (productT (2 ^ lm) (2 ^ lk) (2 ^ ln) a b)) proof tr = .ok tr' := by
  rw [← product_transposeRm]
  obtain ⟨bt, hbt⟩ : ∃ bt, bt = transposeRm b (2 ^ ln) (2 ^ lk) := ⟨_, rfl⟩
  have hbtlen : bt.length = 2 ^ lk * 2 ^ ln := by
    rw [hbt, length_transposeRm, Nat.mul_comm]
  obtain ⟨rx, ry, tr1, hpoints, hrx, hry⟩ := drawPoints_ok lm ln (bindIo pcs (2 ^ lm) (2 ^ lk) (2 ^ ln) (pcs.commit a)
    (pcs.commit b) (pcs.commit (product (2 ^ lm) (2 ^ lk) (2 ^ ln) a bt)) tr)
  obtain ⟨proof, ch, tr2, hcore⟩ := core_complete (nodes_zmod hp)
    (fits_new lm lk ln a bt) hrx hry rfl tr1
  -- the column of the transposed table is a row of the natural one
  have hopenB : proof.gFinal = mle b (ry ++ ch) := by
    rw [hcore.gFinal, mle_append_comm b ry hcore.point]
    refine ext_congr fun l hl => ext_congr fun j hj => ?_
    rw [hcore.point] at hl
    rw [hry] at hj
    rw [grid, hbt]
    exact entry_transposeRm b hl hj
  rw [← hbt]
  refine ⟨⟨proof, pcs.open' a (rx ++ ch), pcs.open' b (ry ++ ch),
    pcs.open' (product (2 ^ lm) (2 ^ lk) (2 ^ ln) a bt) (rx ++ ry)⟩, tr2, ?_, ?_⟩
  · rw [proveCommittedIoBt, guarded_of_not (not_not.mpr ha), guarded_of_not (not_not.mpr hb), ← hbt,
      instance_new ha hbtlen, ok_bind]
    show (bindAndDrawIo _ _ _ _ _ _ _ _ >>= _) = _
    rw [bindAndDrawIo, hpoints, ok_bind, hcore.proved]
    rfl
  · refine verifyIo_of_core hideal ⟨2 ^ lm, 2 ^ lk, 2 ^ ln, a, bt,
      product (2 ^ lm) (2 ^ lk) (2 ^ ln) a bt⟩ hpoints hrx hry hcore
      ha (length_pow hb) (length_product ..) ?_ hopenB
    rw [List.length_append, hry, hcore.point]

/-- **ALL FOUR FORMS**: an honest proof is accepted, and where the product is not `C`, a
    prover is accepted at few challenges. -/
theorem matmul_complete_and_sound (hp : 2 < p) (commitTable : List (ZMod p) → List UInt8) (hideal : Ideal pcs committed)
    (lm lk ln : ℕ) (a : List (ZMod p)) (ha : a.length = 2 ^ lm * 2 ^ lk) :
    (∀ (b : List (ZMod p)) (tr : Transcript (ZMod p)), b.length = 2 ^ lk * 2 ^ ln →
      (∃ mm proof tr', Instance.new (2 ^ lm) (2 ^ lk) (2 ^ ln) a b = .ok mm ∧ prove commitTable mm tr = .ok (proof, tr')
        ∧ verify commitTable (2 ^ lm) (2 ^ lk) (2 ^ ln) a b mm.c proof tr = .ok tr')
      ∧ (∃ mm proof tr', Instance.new (2 ^ lm) (2 ^ lk) (2 ^ ln) a b = .ok mm
        ∧ proveCommitted commitTable pcs mm tr = .ok ((proof, pcs.commit a, pcs.commit b), tr')
        ∧ verifyCommitted commitTable pcs (2 ^ lm) (2 ^ lk) (2 ^ ln) (pcs.commit a) (pcs.commit b) mm.c proof tr
          = .ok tr') ∧ ∃ mm proof tr', Instance.new (2 ^ lm) (2 ^ lk) (2 ^ ln) a b = .ok mm
        ∧ proveCommittedIo pcs mm tr = .ok ((proof, pcs.commit a, pcs.commit b, pcs.commit mm.c), tr')
        ∧ verifyCommittedIo pcs (2 ^ lm) (2 ^ lk) (2 ^ ln) (pcs.commit a) (pcs.commit b) (pcs.commit mm.c) proof tr
          = .ok tr') ∧ (∀ (b : List (ZMod p)) (tr : Transcript (ZMod p)), b.length = 2 ^ ln * 2 ^ lk →
      ∃ proof tr', proveCommittedIoBt pcs a b (2 ^ lm) (2 ^ lk) (2 ^ ln) tr
          = .ok ((proof, pcs.commit a, pcs.commit b, pcs.commit (productT (2 ^ lm) (2 ^ lk) (2 ^ ln) a b)), tr')
        ∧ verifyCommittedIoBt pcs (2 ^ lm) (2 ^ lk) (2 ^ ln) (pcs.commit a) (pcs.commit b)
          (pcs.commit (productT (2 ^ lm) (2 ^ lk) (2 ^ ln) a b)) proof tr = .ok tr')
    ∧ (∀ (b c : List (ZMod p)) (P : Prover (ZMod p)) (openA openB openC : List (ZMod p) → pcs.Opening),
      b.length = 2 ^ lk * 2 ^ ln → c.length = 2 ^ lm * 2 ^ ln → c ≠ product (2 ^ lm) (2 ^ lk) (2 ^ ln) a b →
      fraction (fun ω : (Fin lm → ZMod p) × (Fin ln → ZMod p) × (Fin lk → ZMod p) => ∃ tr',
        verify commitTable (2 ^ lm) (2 ^ lk) (2 ^ ln) a b c (P.run ω) (replay (challenges ω)) = .ok tr')
        ≤ (lm + ln + 2 * lk : ℕ) / p
      ∧ fraction (fun ω : (Fin lm → ZMod p) × (Fin ln → ZMod p) × (Fin lk → ZMod p) => ∃ tr',
        verifyCommitted commitTable pcs (2 ^ lm) (2 ^ lk) (2 ^ ln) (pcs.commit a) (pcs.commit b) c
          ⟨P.run ω, openA (challenges ω), openB (challenges ω)⟩ (replay (challenges ω)) = .ok tr')
        ≤ (lm + ln + 2 * lk : ℕ) / p
      ∧ fraction (fun ω : (Fin lm → ZMod p) × (Fin ln → ZMod p) × (Fin lk → ZMod p) => ∃ tr',
        verifyCommittedIo pcs (2 ^ lm) (2 ^ lk) (2 ^ ln) (pcs.commit a) (pcs.commit b) (pcs.commit c)
          ⟨P.run ω, openA (challenges ω), openB (challenges ω), openC (challenges ω)⟩ (replay (challenges ω)) = .ok tr')
        ≤ (lm + ln + 2 * lk : ℕ) / p)
    ∧ ∀ (b c : List (ZMod p)) (P : Prover (ZMod p)) (openA openB openC : List (ZMod p) → pcs.Opening),
      b.length = 2 ^ ln * 2 ^ lk → c.length = 2 ^ lm * 2 ^ ln → c ≠ productT (2 ^ lm) (2 ^ lk) (2 ^ ln) a b →
      fraction (fun ω : (Fin lm → ZMod p) × (Fin ln → ZMod p) × (Fin lk → ZMod p) => ∃ tr',
        verifyCommittedIoBt pcs (2 ^ lm) (2 ^ lk) (2 ^ ln) (pcs.commit a) (pcs.commit b) (pcs.commit c)
          ⟨P.run ω, openA (challenges ω), openB (challenges ω), openC (challenges ω)⟩ (replay (challenges ω)) = .ok tr')
        ≤ (lm + ln + 2 * lk : ℕ) / p := by
  refine ⟨?_, ?_, ?_, ?_⟩
  · intro b tr hb
    exact ⟨prove_verify hp commitTable ha hb tr, proveCommitted_verify hp commitTable hideal ha hb tr,
      proveCommittedIo_verify hp hideal ha hb tr⟩
  · intro b tr hb
    exact proveCommittedIoBt_verify hp hideal ha hb tr
  · intro b c P openA openB openC hb hc hne
    -- some entry is wrong: what is left bounds the draws that miss it
    have hentry := exists_of_ne_product hc hne
    refine ⟨?_, ?_, ?_⟩
    · refine accepted_sound hp P hentry ?_
      rintro ω ⟨tr', h⟩
      exact verify_reduced ha hc List.length_ofFn List.length_ofFn h
    · refine accepted_sound hp P hentry ?_
      rintro ω ⟨tr', h⟩
      exact verifyCommitted_reduced hideal ha hb hc List.length_ofFn List.length_ofFn h
    · refine accepted_sound hp P hentry ?_
      rintro ω ⟨tr', h⟩
      exact verifyIo_reduced hideal ha (length_pow hb) hc List.length_ofFn List.length_ofFn
        (fun ch _ => mle_append b ch List.length_ofFn) h
  · intro b c P openA openB openC hb hc hne
    refine accepted_sound (g := fun l j => grid b (2 ^ lk) j l) hp P (exists_of_ne_productT hc hne) ?_
    rintro ω ⟨tr', h⟩
    exact verifyIo_reduced hideal ha (length_pow hb) hc List.length_ofFn List.length_ofFn
      (fun ch hch => mle_append_comm b _ hch) h

end Prime

/-! ## Two terms over three elements -/

/-- Commitments that are the tables. -/
def clearPcs : Pcs (ZMod 3) where
  Comm := List (ZMod 3)
  Opening := Unit
  commit := id
  open' := fun _ _ => ()
  bytes := fun t => t.map fun x => UInt8.ofNat x.val
  verify := fun t point value _ => t.length = 2 ^ point.length ∧ value = mle t point

theorem clearPcs_ideal : Ideal clearPcs id := by
  constructor
  case commits => exact fun _ _ _ => rfl
  case verifies => exact fun _ _ _ _ => decide_eq_true_iff

local instance atLeastTwo_two : Nat.AtLeastTwo 2 := ⟨le_rfl⟩

/-- A prover that claims 2 where `(1, 2)·(2, 1)` is 1: its round agrees with the honest one at the challenges 0 and 2,
    and its last values are honest. -/
def sampleProver : Prover (ZMod 3) where
  rounds := fun _ => ⟨2, 0, 0⟩
  count := fun _ => 1
  rx := fun _ => []
  ry := fun _ => []
  claim := fun _ => 2
  fFinal := fun ch => 1 + ch.headD 0
  gFinal := fun ch => 2 - ch.headD 0

/-- A row times a matrix is accepted, and the false claim at two challenges of three at most. -/
theorem matmul_complete_and_sound_three :
    (∃ proof tr', proveCommittedIoBt clearPcs [1, 2] [2, 1, 0, 1] 1 2 2 (replay [2, 1])
        = .ok ((proof, [1, 2], [2, 1, 0, 1], productT 1 2 2 [1, 2] [2, 1, 0, 1]), tr')
      ∧ verifyCommittedIoBt clearPcs 1 2 2 ([1, 2] : List (ZMod 3)) ([2, 1, 0, 1] : List (ZMod 3))
        (productT 1 2 2 [1, 2] [2, 1, 0, 1]) proof (replay [2, 1]) = .ok tr')
    ∧ fraction (fun ω : (Fin 0 → ZMod 3) × (Fin 0 → ZMod 3) × (Fin 1 → ZMod 3) => ∃ tr',
      verify (fun _ => []) 1 2 1 [1, 2] [2, 1] [2] (sampleProver.run ω) (replay (challenges ω)) = .ok tr')
      ≤ (2 : ℕ) / (3 : ℕ) := by
  constructor
  · exact (matmul_complete_and_sound (by decide) (fun _ => []) clearPcs_ideal 0 1 1 [1, 2] rfl).2.1
      [2, 1, 0, 1] (replay [2, 1])
      rfl
  · refine ((matmul_complete_and_sound (by decide) (fun _ => []) clearPcs_ideal 0 1 0 [1, 2]
      rfl).2.2.1 [2, 1] [2] sampleProver
      (fun _ => ()) (fun _ => ()) (fun _ => ()) rfl rfl ?_).1
    decide

end MatMulSound
