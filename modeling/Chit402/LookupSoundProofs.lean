import Chit402.LookupCompleteProofs

/-! # Lookups are sound

    A query row that is no row of the table keeps a value of its own under
    most `γ`, then no advice balances at most `β`, and advice that does not
    balance fails a sum or one of the equations, so that a sumcheck has a
    wrong claim.  Both forms of the verifier come down to that. -/

namespace LookupSound

open ExceptFlow Multilinear Mle FiatShamir Sumcheck SumcheckSound ChallengeGame MatMulSound Logup Lookup LookupComplete
  Finset Polynomial

open MatMul (Pcs)

variable {F : Type} [Field F]

/-! ## The games -/

section Games

/-- A zero check of `a·(β - q) = m` that convinces. -/
def Passes (g : List F → F[X]) (beta : F) (a q m : ℕ → F) (r ch : List F) : Prop :=
  Convinces g (beta * Multilinear.ext r a - Multilinear.ext r m) [weight r, a, q] ch

theorem fails_of_not_balanced {n t : ℕ} {q τ m a b : ℕ → F} {beta : F} (h : ¬ Balanced n t q τ m a b beta) :
    (∃ i < n, a i * (beta - q i) ≠ 1) ∨ (∃ j < t, b j * (beta - τ j) ≠ m j)
      ∨ ∑ i ∈ range n, a i ≠ ∑ j ∈ range t, b j := by
  by_contra hnone
  push Not at hnone
  obtain ⟨hquery, htable, hsums⟩ := hnone
  exact h ⟨hquery, htable, hsums⟩

variable [Fintype F] {lq lt : ℕ} {q τ m a b : ℕ → F} {beta : F}

omit [Field F] in
theorem share_nonneg (x : ℕ) : (0 : ℚ) ≤ x / Fintype.card F := div_nonneg (Nat.cast_nonneg _) (Nat.cast_nonneg _)

omit [Field F] in
theorem share_mono {x y : ℕ} (h : x ≤ y) : (x : ℚ) / Fintype.card F ≤ y / Fintype.card F :=
  div_le_div_of_nonneg_right (Nat.cast_le.mpr h) (Nat.cast_nonneg _)

/-- A zero check that convinces at the point and the challenges drawn. -/
def ZeroPasses {s : ℕ} (g : List F → List F → F[X]) (beta : F) (a q m : ℕ → F) (u : (Fin s → F) × (Fin s → F)) : Prop :=
  Passes (g (List.ofFn u.1)) beta a q m (List.ofFn u.1) (List.ofFn u.2)

theorem zeroPasses_le {s i : ℕ} {g : List F → List F → F[X]}
    (hg : ∀ r before, (g r before).natDegree ≤ 3) (hi : i < 2 ^ s)
    (hne : a i * (beta - q i) ≠ m i) :
    fraction (ZeroPasses (s := s) g beta a q m) ≤ (4 * s : ℕ) / Fintype.card F := fraction_zerocheck_le hi hne hg

/-- Two zero checks, one after the other, of which one is about an equation that fails. -/
theorem zero_game {E : ((Fin lq → F) × (Fin lq → F)) × ((Fin lt → F) × (Fin lt → F)) → Prop}
    (gQ : List F → List F → F[X]) (gT : (Fin lq → F) × (Fin lq → F) → List F → List F → F[X])
    (hgQ : ∀ r before, (gQ r before).natDegree ≤ 3) (hgT : ∀ u r before, (gT u r before).natDegree ≤ 3)
    (hfails : (∃ i < 2 ^ lq, a i * (beta - q i) ≠ 1) ∨ ∃ j < 2 ^ lt, b j * (beta - τ j) ≠ m j)
    (hquery : ∀ ω, E ω → ZeroPasses gQ beta a q (fun _ => 1) ω.1)
    (htable : ∀ ω, E ω → ZeroPasses (gT ω.1) beta b τ m ω.2) : fraction E ≤ (4 * (lq + lt) : ℕ) / Fintype.card F := by
  rcases hfails with ⟨i, hi, hne⟩ | ⟨j, hj, hne⟩
  · have hzero := zeroPasses_le (m := fun _ => 1) hgQ hi hne
    calc fraction E ≤ fraction (fun ω : ((Fin lq → F) × (Fin lq → F)) × ((Fin lt → F) × (Fin lt → F)) =>
          ZeroPasses gQ beta a q (fun _ => 1) ω.1) := fraction_mono hquery
      _ ≤ (4 * lq : ℕ) / Fintype.card F := fraction_fst_le (P := ZeroPasses gQ beta a q fun _ => 1) hzero
      _ ≤ (4 * (lq + lt) : ℕ) / Fintype.card F := share_mono (Nat.mul_le_mul_left 4 (Nat.le_add_right lq lt))
  · have hzero : ∀ u, fraction (fun v => E (u, v)) ≤ (4 * lt : ℕ) / Fintype.card F := by
      intro u
      have hpasses : ∀ v, E (u, v) → ZeroPasses (gT u) beta b τ m v := fun v hv => htable (u, v) hv
      exact le_trans (fraction_mono hpasses) (zeroPasses_le (hgT u) hj hne)
    calc fraction E ≤ (4 * lt : ℕ) / Fintype.card F := fraction_skip (share_nonneg (4 * lt)) hzero
      _ ≤ (4 * (lq + lt) : ℕ) / Fintype.card F := share_mono (Nat.mul_le_mul_left 4 (Nat.le_add_left lt lq))

/-- A sumcheck of one table that convinces at the challenges drawn. -/
def SumPasses {s : ℕ} (g : List F → F[X]) (sum : F) (a : ℕ → F) (v : Fin s → F) : Prop :=
    Convinces g sum [a] (List.ofFn v)

theorem sumPasses_le {s : ℕ} {g : List F → F[X]} {sum : F} (hg : ∀ before, (g before).natDegree ≤ 3)
    (hne : sum ≠ ∑ i ∈ range (2 ^ s), a i) : fraction (SumPasses (s := s) g sum a) ≤ (4 * s : ℕ) / Fintype.card F := by
  have hcube : cubeSum s [a] = ∑ i ∈ range (2 ^ s), a i := by
    refine sum_congr rfl fun x _ => ?_
    rw [List.map_cons, List.map_nil, List.prod_cons, List.prod_nil, mul_one]
  have hclaim : sum ≠ cubeSum s [a] := by rwa [hcube]
  refine le_trans (sumcheck_sound hg (Nat.le_add_left 1 2) hclaim) (share_mono ?_)
  omega

/-- Sumchecks of both sums before the zero checks, of advice that does not balance. -/
theorem committed_game
    {E : (Fin lq → F) × (Fin lt → F) × (((Fin lq → F) × (Fin lq → F)) × ((Fin lt → F) × (Fin lt → F))) → Prop}
    (gA : List F → F[X]) (gB : (Fin lq → F) → List F → F[X]) (gQ : (Fin lq → F) → (Fin lt → F) → List F → List F → F[X])
    (gT : (Fin lq → F) → (Fin lt → F) → (Fin lq → F) × (Fin lq → F) → List F → List F → F[X]) (sum : F)
    (hgA : ∀ before, (gA before).natDegree ≤ 3) (hgB : ∀ u before, (gB u before).natDegree ≤ 3)
    (hgQ : ∀ u w r before, (gQ u w r before).natDegree ≤ 3) (hgT : ∀ u w z r before, (gT u w z r before).natDegree ≤ 3)
    (hbalance : ¬ Balanced (2 ^ lq) (2 ^ lt) q τ m a b beta) (hsumA : ∀ ω, E ω → SumPasses gA sum a ω.1)
    (hsumB : ∀ ω, E ω → SumPasses (gB ω.1) sum b ω.2.1)
    (hquery : ∀ ω, E ω → ZeroPasses (gQ ω.1 ω.2.1) beta a q (fun _ => 1) ω.2.2.1)
    (htable : ∀ ω, E ω → ZeroPasses (gT ω.1 ω.2.1 ω.2.2.1) beta b τ m ω.2.2.2) :
    fraction E ≤ (4 * (lq + lt) : ℕ) / Fintype.card F := by
  have hequation : ((∃ i < 2 ^ lq, a i * (beta - q i) ≠ 1) ∨ ∃ j < 2 ^ lt, b j * (beta - τ j) ≠ m j) →
      fraction E ≤ (4 * (lq + lt) : ℕ) / Fintype.card F := by
    intro hfails
    have hzero : ∀ u w, fraction (fun ω => E (u, w, ω)) ≤ (4 * (lq + lt) : ℕ) / Fintype.card F := by
      intro u w
      exact zero_game (gQ u w) (gT u w) (hgQ u w) (hgT u w) hfails (fun ω hω => hquery (u, w, ω) hω)
        (fun ω hω => htable (u, w, ω) hω)
    exact fraction_skip (share_nonneg _) fun u => fraction_skip (share_nonneg _) (hzero u)
  rcases fails_of_not_balanced hbalance with hfails | hfails | hsums
  · exact hequation (.inl hfails)
  · exact hequation (.inr hfails)
  · by_cases hA : sum = ∑ i ∈ range (2 ^ lq), a i
    · have hB : sum ≠ ∑ j ∈ range (2 ^ lt), b j := fun hB => hsums (hA.symm.trans hB)
      have hsecond : ∀ u, fraction (fun ω => E (u, ω)) ≤ (4 * lt : ℕ) / Fintype.card F := by
        intro u
        refine le_trans (fraction_mono fun ω hω => hsumB (u, ω) hω) ?_
        exact fraction_fst_le (P := SumPasses (gB u) sum b) (sumPasses_le (hgB u) hB)
      exact le_trans (fraction_skip (share_nonneg _) hsecond)
        (share_mono (Nat.mul_le_mul_left 4 (Nat.le_add_left lt lq)))
    · refine le_trans (fraction_mono hsumA)
        (le_trans (fraction_fst_le (P := SumPasses gA sum a) (sumPasses_le hgA hA)) ?_)
      exact share_mono (Nat.mul_le_mul_left 4 (Nat.le_add_right lq lt))

/-- **LOOKUP GAME**: a query row that is no row of the table is accepted at few `γ`, at few
    `β`, or at few of the later challenges, as often as those go wrong for advice that
    does not balance. -/
theorem lookup_game [DecidableEq F] {Ω : Type} [Fintype Ω] {queryCols tableCols : List (List F)} {c n t x i : ℕ}
    (accepts : F × F × Ω → Prop) (hquery : Shaped queryCols n) (htable : Shaped tableCols t)
      (hqc : queryCols.length = c)
    (htc : tableCols.length = c) (hi : i < n) (hrow : ∀ j < t, row queryCols i ≠ row tableCols j)
    (hn : ∀ k, 0 < k → k ≤ n → (k : F) ≠ 0) (m : ℕ → F)
    (hrest : ∀ gamma beta, (¬ ∃ a b, Balanced n t (entry (foldColumns queryCols gamma))
      (entry (foldColumns tableCols gamma))
      m a b beta) → fraction (fun ω => accepts (gamma, beta, ω)) ≤ (x : ℕ) / Fintype.card F) :
    fraction accepts ≤ (t * (c - 1) + (n + t + t + x) : ℕ) / Fintype.card F := by
  have hrows := fraction_rows_le (t := t) (row tableCols) ((length_row queryCols i).trans hqc)
    (fun j _ => (length_row tableCols j).trans htc) hrow
  have hbound : ((t * (c - 1) + (n + t + t + x) : ℕ) : ℚ) / Fintype.card F = (t * (c - 1) : ℕ) / Fintype.card F
      + ((n + t + t : ℕ) / Fintype.card F + (x : ℕ) / Fintype.card F) := by
    rw [← add_div, ← add_div, ← Nat.cast_add, ← Nat.cast_add]
  rw [hbound]
  refine fraction_escape hrows (add_nonneg (share_nonneg _) (share_nonneg _)) fun gamma hgamma => ?_
  have hout : ∀ j < t, entry (foldColumns tableCols gamma) j ≠ entry (foldColumns queryCols gamma) i := by
    intro j hj heq
    rw [htable.entry_fold gamma hj, hquery.entry_fold gamma hi] at heq
    exact hgamma ⟨j, hj, heq.symm⟩
  exact fraction_escape (fraction_balanced_le hi hout hn) (share_nonneg _) fun beta hbeta => hrest gamma beta hbeta

end Games

/-! ## Rounds at given challenges -/

section Rounds

variable [DecidableEq F]

/-- A prover's message in each round, never more than four evaluations. -/
def Short (rounds : List F → List F) : Prop := ∀ before, (rounds before).length ≤ 4

/-- The polynomials that short messages stand for. -/
noncomputable def polys (rounds : List F → List F) (before : List F) : F[X] := interpolated (rounds before)

omit [DecidableEq F] in
theorem Short.nodes (hnodes : Nodes F 4) {rounds : List F → List F} (h : Short rounds) (before : List F) :
    Nodes F (rounds before).length := hnodes.mono (h before)

omit [DecidableEq F] in
theorem Short.natDegree_le (hnodes : Nodes F 4) {rounds : List F → List F} (h : Short rounds) (before : List F) :
    (polys rounds before).natDegree ≤ 3 :=
  le_trans (interpolated_natDegree_le (h.nodes hnodes before)) (Nat.sub_le_sub_right (h before) 1)

theorem multi_convinces (hnodes : Nodes F 4) {rounds : List F → List F} (hshort : Short rounds) {k : ℕ} {claim red : F}
    {rs rest ch : List F} {tr tr' : Transcript F} (hdraws : Draws tr (rs ++ rest))
    (h : verifyProductMulti ⟨messages rounds k rs⟩ claim tr = .ok ((ch, red), tr')) (hlen : ch.length = rs.length) :
    ch = rs ∧ Draws tr' rest ∧ ∀ fs : List (ℕ → F), red = (fs.map (Multilinear.ext rs)).prod →
      Convinces (polys rounds) claim fs rs := by
  have hk : k = rs.length := by
    have hrounds := verifyRounds_length h
    rw [hlen] at hrounds
    exact (length_messages rounds k rs).symm.trans hrounds.symm
  rw [hk] at h
  exact verifyRounds_convinces listFormat_quiet (fun before => listFormat_sends (hshort.nodes hnodes before)) hdraws h

/-- A zero check that gets through, at the point and the challenges given. -/
theorem zeroCheckRounds_convinces (hnodes : Nodes F 4) {lbl : List UInt8} {rounds : List F → List F}
    (hshort : Short rounds) {s k : ℕ} {claim : List F → Except Abort F} {r ch rest : List F} {tr : Transcript F}
    {out : (List F × List F × F) × Transcript F} (hdraws : Draws tr (r ++ (ch ++ rest))) (hr : r.length = s)
    (h : zeroCheckRounds lbl (2 ^ s) claim ⟨messages rounds k ch⟩ tr = .ok out) (hlen : out.1.2.1.length = ch.length) :
    out.1.1 = r ∧ out.1.2.1 = ch ∧ Draws out.2 rest ∧ ∃ value, claim r = .ok value
      ∧ ∀ fs : List (ℕ → F), out.1.2.2 = (fs.map (Multilinear.ext ch)).prod → Convinces (polys rounds) value fs ch := by
  obtain ⟨hpoint, hnext⟩ := hdraws.drawPoint lbl
  rw [hr] at hpoint hnext
  rw [zeroCheckRounds, log2Exact_pow, ok_bind] at h
  obtain ⟨value, hvalue, h⟩ := bind_iff.mp h
  obtain ⟨⟨⟨ch', red⟩, tr'⟩, hverify, h⟩ := bind_iff.mp h
  cases h
  obtain ⟨hch, hdone, hconvinces⟩ := multi_convinces hnodes hshort hnext hverify hlen
  rw [hpoint] at hvalue
  exact ⟨hpoint, hch, hdone, value, hvalue, hconvinces⟩

theorem zeroCheckRounds_point {lbl : List UInt8} {s : ℕ} {claim : List F → Except Abort F} {sc : MultiSumcheckProof F}
    {tr : Transcript F} {out : (List F × List F × F) × Transcript F}
    (h : zeroCheckRounds lbl (2 ^ s) claim sc tr = .ok out) : out.1.1.length = s := by
  rw [zeroCheckRounds, log2Exact_pow, ok_bind] at h
  obtain ⟨value, -, h⟩ := bind_iff.mp h
  obtain ⟨rounds, -, h⟩ := bind_iff.mp h
  cases h
  exact length_drawPoint s lbl tr

omit [DecidableEq F] in
theorem final_product {r ch : List F} (h : r.length = ch.length) (a q : ℕ → F) :
    eqEval r ch * Multilinear.ext ch a * Multilinear.ext ch q = ([weight r, a, q].map (Multilinear.ext ch)).prod := by
  rw [List.map_cons, List.map_cons, List.map_cons, List.map_nil, List.prod_cons, List.prod_cons, List.prod_cons,
    List.prod_nil, mul_one, ext_eqWeights h, mul_assoc]

theorem verifyZeroCheck_passes (hnodes : Nodes F 4) {lbl : List UInt8} {rounds : List F → List F}
    (hshort : Short rounds)
    {s k : ℕ} {beta : F} {a q r ch rest : List F} {m : ℕ → F} {target : List F → Except Abort F} {tr tr' : Transcript F}
    (hdraws : Draws tr (r ++ (ch ++ rest))) (hr : r.length = s) (hch : ch.length = s) (ha : a.length = 2 ^ s)
    (htarget : ∀ value, target r = .ok value → value = Multilinear.ext r m)
    (h : verifyZeroCheck lbl (2 ^ s) beta a q target ⟨messages rounds k ch⟩ tr = .ok tr') :
    Draws tr' rest ∧ Passes (polys rounds) beta (entry a) (entry q) m r ch := by
  rw [verifyZeroCheck] at h
  obtain ⟨out, hrounds, h⟩ := bind_iff.mp h
  obtain ⟨aCh, haCh, h⟩ := bind_iff.mp h
  obtain ⟨qCh, hqCh, h⟩ := bind_iff.mp h
  rw [guarded_iff, not_not] at h
  obtain ⟨hred, h⟩ := h
  cases h
  obtain ⟨halen, rfl⟩ := mleEval_ok_iff.mp haCh
  obtain ⟨-, rfl⟩ := mleEval_ok_iff.mp hqCh
  have hlen : out.1.2.1.length = ch.length := by
    rw [ha] at halen
    exact (Nat.pow_right_injective (le_refl 2) halen).symm.trans hch.symm
  obtain ⟨hpoint, hchallenges, hdone, value, hvalue, hconvinces⟩ :=
    zeroCheckRounds_convinces hnodes hshort hdraws hr hrounds hlen
  obtain ⟨aR, haR, hvalue⟩ := bind_iff.mp hvalue
  obtain ⟨v, hv, hvalue⟩ := bind_iff.mp hvalue
  obtain ⟨-, rfl⟩ := mleEval_ok_iff.mp haR
  cases hvalue
  obtain rfl := htarget v hv
  refine ⟨hdone, hconvinces _ ?_⟩
  rw [hred, hpoint, hchallenges]
  exact final_product (hr.trans hch.symm) (entry a) (entry q)

end Rounds

/-! ## In the clear -/

section Clear

/-- A prover of the form in the clear.  The advice depends on `γ` and `β`, a round on the
    challenges before it. -/
structure LookupProver (F : Type) where
  a : List F → List F
  b : List F → List F
  roundsQ : List F → List F
  roundsT : List F → List F
  countQ : List F → ℕ
  countT : List F → ℕ

def zeroChallenges (r2 ch2 r3 ch3 : List F) : List F := r2 ++ (ch2 ++ (r3 ++ ch3))

/-- The proof at the challenges given. -/
def LookupProver.proof (P : LookupProver F) (m : List F) (gamma beta : F) (r2 ch2 r3 ch3 : List F) : LookupProof F where
  a := P.a [gamma, beta]
  b := P.b [gamma, beta]
  m := m
  scQ := ⟨messages (fun before => P.roundsQ (gamma :: beta :: (r2 ++ before)))
    (P.countQ (gamma :: beta :: zeroChallenges r2 ch2 r3 ch3)) ch2⟩
  scT := ⟨messages (fun before => P.roundsT (gamma :: beta :: (r2 ++ (ch2 ++ (r3 ++ before)))))
    (P.countT (gamma :: beta :: zeroChallenges r2 ch2 r3 ch3)) ch3⟩

theorem absorbColumns_draws (commitTable : List F → List UInt8) (cols : List (List F)) {tr : Transcript F} {rs : List F}
    (h : Draws tr rs) : Draws (absorbColumns commitTable cols tr) rs := by
  rw [absorbColumns]
  generalize cols.zipIdx = indexed
  induction indexed generalizing tr with
  | nil => exact h
  | cons col indexed ih => exact ih (h.absorbBytes _ _)

theorem bindAndChallenge_draws (commitTable : List F → List UInt8) (queryCols tableCols : List (List F)) (m : List F)
    {tr : Transcript F} {gamma beta : F} {rest : List F} (h : Draws tr (gamma :: beta :: rest)) :
    (bindAndChallenge commitTable queryCols tableCols m tr).1 = (gamma, beta)
      ∧ Draws (bindAndChallenge commitTable queryCols tableCols m tr).2 rest := by
  have hcolumns := absorbColumns_draws commitTable tableCols (absorbColumns_draws commitTable queryCols h)
  obtain ⟨hgamma, hnext⟩ := (hcolumns.absorbBytes (label "lk.m") (commitTable m)).challenge (label "lk.gamma")
  obtain ⟨hbeta, hdone⟩ := hnext.challenge (label "lk.beta")
  exact ⟨Prod.ext hgamma hbeta, hdone⟩

variable [DecidableEq F] {lq lt : ℕ} {queryCols tableCols : List (List F)}

/-- A proof that the form in the clear accepts adds up and passes both zero checks. -/
theorem verifyLookup_passes (hnodes : Nodes F 4) (commitTable : List F → List UInt8)
    (hquery : Shaped queryCols (2 ^ lq))
    (htable : Shaped tableCols (2 ^ lt)) {P : LookupProver F} (hshortQ : Short P.roundsQ) (hshortT : Short P.roundsT)
    {m : List F} {gamma beta : F} {r2 ch2 r3 ch3 : List F} (hr2 : r2.length = lq) (hch2 : ch2.length = lq)
    (hr3 : r3.length = lt) (hch3 : ch3.length = lt) {tr' : Transcript F}
    (h : verifyLookup commitTable queryCols tableCols (P.proof m gamma beta r2 ch2 r3 ch3)
      (replay (gamma :: beta :: zeroChallenges r2 ch2 r3 ch3)) = .ok tr') :
    ∑ i ∈ range (2 ^ lq), entry (P.a [gamma, beta]) i = ∑ j ∈ range (2 ^ lt), entry (P.b [gamma, beta]) j
    ∧ Passes (polys fun before => P.roundsQ (gamma :: beta :: (r2 ++ before))) beta (entry (P.a [gamma, beta]))
      (entry (foldColumns queryCols gamma)) (fun _ => 1) r2 ch2
    ∧ Passes (polys fun before => P.roundsT (gamma :: beta :: (r2 ++ (ch2 ++ (r3 ++ before))))) beta
      (entry (P.b [gamma, beta])) (entry (foldColumns tableCols gamma)) (entry m) r3 ch3 := by
  obtain ⟨queryCode, hqfirst, hqmem, -⟩ := hquery.firstColumn
  obtain ⟨tableCode, htfirst, htmem, -⟩ := htable.firstColumn
  obtain ⟨hchallenges, hdraws⟩ := bindAndChallenge_draws commitTable queryCols tableCols m
    (replay_draws (gamma :: beta :: zeroChallenges r2 ch2 r3 ch3))
  rw [verifyLookup, hqfirst, ok_bind, htfirst, ok_bind, hquery.2 queryCode hqmem, htable.2 tableCode htmem,
    guarded_iff, guarded_iff, hquery.checked, ok_bind, htable.checked, ok_bind] at h
  obtain ⟨-, hlens, h⟩ := h
  rw [not_or, not_or, not_not, not_not, not_not] at hlens
  obtain ⟨halen, hblen, hmlen⟩ := hlens
  rw [guarded_iff, not_not] at h
  obtain ⟨hsums, h⟩ := h
  obtain ⟨tr2, hq, ht⟩ := bind_iff.mp h
  have halen : (P.a [gamma, beta]).length = 2 ^ lq := halen
  have hblen : (P.b [gamma, beta]).length = 2 ^ lt := hblen
  have hsums : (P.a [gamma, beta]).sum = (P.b [gamma, beta]).sum := hsums
  have hq : verifyZeroCheck (label "lk.r2") (2 ^ lq) (bindAndChallenge commitTable queryCols tableCols m
      (replay (gamma :: beta :: zeroChallenges r2 ch2 r3 ch3))).1.2 (P.a [gamma, beta]) (foldColumns queryCols
      (bindAndChallenge commitTable queryCols tableCols m (replay (gamma :: beta :: zeroChallenges r2 ch2 r3 ch3))).1.1)
      (fun _ => .ok 1) _ _ = .ok tr2 := hq
  have ht : verifyZeroCheck (label "lk.r3") (2 ^ lt) (bindAndChallenge commitTable queryCols tableCols m
      (replay (gamma :: beta :: zeroChallenges r2 ch2 r3 ch3))).1.2 (P.b [gamma, beta]) (foldColumns tableCols
      (bindAndChallenge commitTable queryCols tableCols m (replay (gamma :: beta :: zeroChallenges r2 ch2 r3 ch3))).1.1)
      (mleEval m) _ tr2 = .ok tr' := ht
  rw [hchallenges] at hq ht
  have hones : ∀ value, (fun _ : List F => (Except.ok 1 : Except Abort F)) r2 = .ok value →
      value = Multilinear.ext r2 fun _ => 1 := by
    intro value hvalue
    rw [ext_const]
    exact (Except.ok.inj hvalue).symm
  obtain ⟨hnext, hpassQ⟩ := verifyZeroCheck_passes hnodes (fun before => hshortQ _)
    ((hdraws.absorbBytes (label "lk.a") _).absorbBytes (label "lk.b") _) hr2 hch2 halen hones hq
  have hnext : Draws tr2 (r3 ++ (ch3 ++ [])) := by
    rw [List.append_nil]
    exact hnext
  obtain ⟨-, hpassT⟩ := verifyZeroCheck_passes hnodes (fun before => hshortT _) hnext hr3 hch3 hblen
    (fun value hvalue => (mleEval_ok_iff.mp hvalue).2) ht
  rw [sum_entries, sum_entries, halen, hblen] at hsums
  exact ⟨hsums, hpassQ, hpassT⟩

end Clear

/-! ## Committed -/

section Committed

variable {pcs : Pcs F}

/-- A prover of the committed form.  What the transcript never absorbs may depend on every
    challenge. -/
structure CommittedProver (pcs : Pcs F) where
  commA : List F → pcs.Comm
  commB : List F → pcs.Comm
  sum : List F → F
  roundsA : List F → List F
  roundsB : List F → List F
  roundsQ : List F → List F
  roundsT : List F → List F
  countA : List F → ℕ
  countB : List F → ℕ
  countQ : List F → ℕ
  countT : List F → ℕ
  aCha : List F → Opened pcs
  aR2 : List F → Opened pcs
  aCh2 : List F → Opened pcs
  bChb : List F → Opened pcs
  bR3 : List F → Opened pcs
  bCh3 : List F → Opened pcs
  mR3 : List F → Opened pcs
  queryCh2 : List F → List (Opened pcs)
  tableCh3 : List F → List (Opened pcs)

def committedChallenges (gamma beta : F) (cha chb r2 ch2 r3 ch3 : List F) : List F :=
  gamma :: beta :: (cha ++ (chb ++ zeroChallenges r2 ch2 r3 ch3))

/-- The proof at the challenges given. -/
def CommittedProver.proof (P : CommittedProver pcs) (commQuery commTable : List pcs.Comm) (commM : pcs.Comm)
    (gamma beta : F) (cha chb r2 ch2 r3 ch3 : List F) : CommittedLookupProof pcs :=
  let all := committedChallenges gamma beta cha chb r2 ch2 r3 ch3
  { sum := P.sum [gamma, beta]
    scSumA := ⟨messages (fun before => P.roundsA (gamma :: beta :: before)) (P.countA all) cha⟩
    scSumB := ⟨messages (fun before => P.roundsB (gamma :: beta :: (cha ++ before))) (P.countB all) chb⟩
    scQ := ⟨messages (fun before => P.roundsQ (gamma :: beta :: (cha ++ (chb ++ (r2 ++ before))))) (P.countQ all) ch2⟩
    scT := ⟨messages (fun before => P.roundsT (gamma :: beta :: (cha ++ (chb ++ (r2 ++ (ch2 ++ (r3 ++ before)))))))
      (P.countT all) ch3⟩
    commQuery := commQuery
    commTable := commTable
    commM := commM
    commA := P.commA [gamma, beta]
    commB := P.commB [gamma, beta]
    aCha := P.aCha all
    aR2 := P.aR2 all
    aCh2 := P.aCh2 all
    bChb := P.bChb all
    bR3 := P.bR3 all
    bCh3 := P.bCh3 all
    mR3 := P.mR3 all
    queryCh2 := P.queryCh2 all
    tableCh3 := P.tableCh3 all }

theorem absorbComms_draws (lbl : List UInt8) (comms : List pcs.Comm) {tr : Transcript F} {rs : List F}
    (h : Draws tr rs) : Draws (absorbComms lbl comms tr) rs := by
  induction comms generalizing tr with
  | nil => exact h
  | cons comm comms ih => exact ih (h.absorbBytes lbl (pcs.bytes comm))

theorem bindCommitted_draws (commQuery commTable : List pcs.Comm) (commM : pcs.Comm)
    {tr : Transcript F} {gamma beta : F}
    {rest : List F} (h : Draws tr (gamma :: beta :: rest)) :
    (bindCommitted commQuery commTable commM tr).1 = (gamma, beta)
      ∧ Draws (bindCommitted commQuery commTable commM tr).2 rest := by
  have hcomms := absorbComms_draws (label "clk.t") commTable (absorbComms_draws (label "clk.q") commQuery h)
  obtain ⟨hgamma, hnext⟩ := (hcomms.absorbBytes (label "clk.m") (pcs.bytes commM)).challenge (label "clk.gamma")
  obtain ⟨hbeta, hdone⟩ := hnext.challenge (label "clk.beta")
  exact ⟨Prod.ext hgamma hbeta, hdone⟩

variable {committed : pcs.Comm → List F}

/-- Openings of columns at one point are their extensions there. -/
theorem values_of_openings (hideal : Ideal pcs committed) {comms : List pcs.Comm} {openings : List (Opened pcs)}
    {point : List F} (hlen : openings.length = comms.length)
    (h : (comms.zip openings).all (fun x => checkOpen pcs x.1 point x.2) = true) :
    openings.map (·.value) = (comms.map committed).map fun col => mle col point := by
  induction comms generalizing openings with
  | nil =>
    obtain rfl := List.eq_nil_of_length_eq_zero hlen
    rfl
  | cons comm comms ih =>
    cases openings with
    | nil => cases hlen
    | cons o openings =>
      rw [List.zip_cons_cons, List.all_cons, Bool.and_eq_true] at h
      have hvalue : o.value = mle (committed comm) point := ((hideal.verifies _ _ _ _).mp h.1).2
      rw [List.map_cons, List.map_cons, List.map_cons, hvalue, ih (Nat.succ.inj hlen) h.2]

variable [DecidableEq F]

/-- A sumcheck of one sum, at the challenges given. -/
theorem verifySum_convinces (hnodes : Nodes F 4) {rounds : List F → List F} (hshort : Short rounds)
    {k : ℕ} {sum value : F}
    {rs rest : List F} {tr : Transcript F} {out : List F × Transcript F} (hdraws : Draws tr (rs ++ rest))
    (h : verifySum ⟨messages rounds k rs⟩ sum value tr = .ok out) (hlen : out.1.length = rs.length) :
    out.1 = rs ∧ Draws out.2 rest
      ∧ ∀ a : ℕ → F, value = Multilinear.ext rs a → Convinces (polys rounds) sum [a] rs := by
  rw [verifySum] at h
  obtain ⟨⟨⟨ch, red⟩, tr'⟩, hverify, h⟩ := bind_iff.mp h
  rw [guarded_iff, not_not] at h
  obtain ⟨hvalue, h⟩ := h
  cases h
  obtain ⟨hch, hdone, hconvinces⟩ := multi_convinces hnodes hshort hdraws hverify hlen
  refine ⟨hch, hdone, fun a ha => hconvinces [a] ?_⟩
  have hred : value = red := hvalue
  rw [List.map_cons, List.map_nil, List.prod_cons, List.prod_nil, mul_one, ← ha, hred]

/-- A zero check on opened values, at the point and the challenges given. -/
theorem verifyZeroOpened_passes (hnodes : Nodes F 4) {lbl : List UInt8} {rounds : List F → List F}
    (hshort : Short rounds)
    {s k : ℕ} {beta aR value aCh qCh : F} {r ch rest : List F} {tr : Transcript F}
    {out : (List F × List F) × Transcript F} (hdraws : Draws tr (r ++ (ch ++ rest))) (hr : r.length = s)
    (hch : ch.length = s) (h : verifyZeroOpened lbl (2 ^ s) (beta * aR - value) aCh qCh
      ⟨messages rounds k ch⟩ tr = .ok out)
    (hlen : out.1.2.length = ch.length) :
    out.1 = (r, ch) ∧ Draws out.2 rest ∧ ∀ a q m : ℕ → F, aR = Multilinear.ext r a → value = Multilinear.ext r m →
      aCh = Multilinear.ext ch a → qCh = Multilinear.ext ch q → Passes (polys rounds) beta a q m r ch := by
  rw [verifyZeroOpened] at h
  obtain ⟨run, hrounds, h⟩ := bind_iff.mp h
  rw [guarded_iff, not_not] at h
  obtain ⟨hred, h⟩ := h
  cases h
  obtain ⟨hpoint, hchallenges, hdone, claim, hclaim, hconvinces⟩ :=
    zeroCheckRounds_convinces hnodes hshort hdraws hr hrounds hlen
  cases hclaim
  refine ⟨Prod.ext hpoint hchallenges, hdone, fun a q m haR hvalue haCh hqCh => ?_⟩
  rw [Passes, ← haR, ← hvalue]
  refine hconvinces _ ?_
  rw [hred, hpoint, hchallenges, haCh, hqCh]
  exact final_product (hr.trans hch.symm) a q

theorem verifyZeroOpened_point {lbl : List UInt8} {s : ℕ} {claim aCh qCh : F} {sc : MultiSumcheckProof F}
    {tr : Transcript F} {out : (List F × List F) × Transcript F}
    (h : verifyZeroOpened lbl (2 ^ s) claim aCh qCh sc tr = .ok out) : out.1.1.length = s := by
  rw [verifyZeroOpened] at h
  obtain ⟨run, hrounds, h⟩ := bind_iff.mp h
  rw [guarded_iff] at h
  cases h.2
  exact zeroCheckRounds_point hrounds

/-- What a committed proof has to show at the challenges of a run: both sums, and both
    zero checks. -/
structure Shows (q τ m a b : ℕ → F) (sum beta : F) (gA gB gQ gT : List F → F[X]) (cha chb r2 ch2 r3 ch3 : List F) :
    Prop where
  sumA : Convinces gA sum [a] cha
  sumB : Convinces gB sum [b] chb
  query : Passes gQ beta a q (fun _ => 1) r2 ch2
  table : Passes gT beta b τ m r3 ch3

variable {lq lt : ℕ} {commQuery commTable : List pcs.Comm} {commM : pcs.Comm}

omit [DecidableEq F] in
theorem fold_of_openings (hideal : Ideal pcs committed) {comms : List pcs.Comm} {openings : List (Opened pcs)}
    {point : List F} {s : ℕ} (hshaped : Shaped (comms.map committed) (2 ^ s)) (hpoint : point.length = s)
    (hlen : openings.length = comms.length)
    (h : (comms.zip openings).all (fun x => checkOpen pcs x.1 point x.2) = true) (gamma : F) :
    foldValues (openings.map (·.value)) gamma
      = Multilinear.ext point (entry (foldColumns (comms.map committed) gamma)) := by
  rw [values_of_openings hideal hlen h]
  exact (Shaped.mle_fold (by rw [hpoint]; exact hshaped) gamma).symm

/-- A proof that the committed form accepts shows its sums and its zero checks. -/
theorem verifyCommittedLookup_shows (hnodes : Nodes F 4) (hideal : Ideal pcs committed)
    (hquery : Shaped (commQuery.map committed) (2 ^ lq)) (htable : Shaped (commTable.map committed) (2 ^ lt))
    {P : CommittedProver pcs} (hshortA : Short P.roundsA) (hshortB : Short P.roundsB) (hshortQ : Short P.roundsQ)
    (hshortT : Short P.roundsT) {gamma beta : F} {cha chb r2 ch2 r3 ch3 : List F} (hcha : cha.length = lq)
    (hchb : chb.length = lt) (hr2 : r2.length = lq) (hch2 : ch2.length = lq) (hr3 : r3.length = lt)
    (hch3 : ch3.length = lt) {tr' : Transcript F}
    (h : verifyCommittedLookup (2 ^ lq) (2 ^ lt) (P.proof commQuery commTable commM gamma beta cha chb r2 ch2 r3 ch3)
      (replay (committedChallenges gamma beta cha chb r2 ch2 r3 ch3)) = .ok tr') :
    Shows (entry (foldColumns (commQuery.map committed) gamma)) (entry (foldColumns (commTable.map committed) gamma))
      (entry (committed commM)) (entry (committed (P.commA [gamma, beta]))) (entry (committed (P.commB [gamma, beta])))
      (P.sum [gamma, beta]) beta (polys fun before => P.roundsA (gamma :: beta :: before))
      (polys fun before => P.roundsB (gamma :: beta :: (cha ++ before)))
      (polys fun before => P.roundsQ (gamma :: beta :: (cha ++ (chb ++ (r2 ++ before)))))
      (polys fun before => P.roundsT (gamma :: beta :: (cha ++ (chb ++ (r2 ++ (ch2 ++ (r3 ++ before)))))))
      cha chb r2 ch2 r3 ch3 := by
  obtain ⟨hchallenges, hdraws⟩ := bindCommitted_draws commQuery commTable commM
    (replay_draws (committedChallenges gamma beta cha chb r2 ch2 r3 ch3))
  obtain ⟨proof, hproof⟩ : ∃ proof, P.proof commQuery commTable commM gamma beta cha chb r2 ch2 r3 ch3
    = proof := ⟨_, rfl⟩
  obtain ⟨bound, hbound⟩ : ∃ bound, bindCommitted commQuery commTable commM
    (replay (committedChallenges gamma beta cha chb r2 ch2 r3 ch3)) = bound := ⟨_, rfl⟩
  have hbind : bindCommitted proof.commQuery proof.commTable proof.commM
      (replay (committedChallenges gamma beta cha chb r2 ch2 r3 ch3)) = bound := by
    rw [← hproof]
    exact hbound
  rw [hbound] at hchallenges hdraws
  rw [hproof, verifyCommittedLookup, guarded_iff, guarded_iff] at h
  obtain ⟨-, hcounts, h⟩ := h
  obtain ⟨hqcount, htcount⟩ := not_or.mp hcounts
  obtain ⟨start, rfl⟩ : ∃ start, bound = ((gamma, beta), start) := ⟨bound.2, Prod.ext hchallenges rfl⟩
  rw [hbind] at h
  subst hproof
  obtain ⟨outA, hA, h⟩ := bind_iff.mp h
  obtain ⟨outB, hB, h⟩ := bind_iff.mp h
  obtain ⟨outQ, hQ, h⟩ := bind_iff.mp h
  obtain ⟨outT, hT, h⟩ := bind_iff.mp h
  rw [guarded_iff, not_not] at h
  obtain ⟨⟨hoA, hoA2, hoAc, hoB, hoB3, hoBc, hoM, hoQ, hoT⟩, -⟩ := h
  -- the openings fix the tables' variables, and these the numbers of rounds
  obtain ⟨halen, haCha⟩ := (hideal.verifies _ _ _ _).mp hoA
  obtain ⟨ha2len, haR2⟩ := (hideal.verifies _ _ _ _).mp hoA2
  obtain ⟨haclen, haCh2⟩ := (hideal.verifies _ _ _ _).mp hoAc
  obtain ⟨hblen, hbChb⟩ := (hideal.verifies _ _ _ _).mp hoB
  obtain ⟨hb3len, hbR3⟩ := (hideal.verifies _ _ _ _).mp hoB3
  obtain ⟨hbclen, hbCh3⟩ := (hideal.verifies _ _ _ _).mp hoBc
  obtain ⟨-, hmR3⟩ := (hideal.verifies _ _ _ _).mp hoM
  rw [verifyZeroOpened_point hQ] at ha2len
  rw [verifyZeroOpened_point hT] at hb3len
  have hvars : ∀ {s x : ℕ}, 2 ^ s = 2 ^ x → x = s := fun heq => (Nat.pow_right_injective (le_refl 2) heq).symm
  obtain ⟨hchaEq, hdrawsB, hsumA⟩ := verifySum_convinces hnodes (fun before => hshortA _)
    ((hdraws.absorbBytes (label "clk.a") _).absorbBytes (label "clk.b") _ |>.absorbField (label "clk.sum") _) hA
    ((hvars (ha2len.symm.trans halen)).trans hcha.symm)
  obtain ⟨hchbEq, hdrawsQ, hsumB⟩ := verifySum_convinces hnodes (fun before => hshortB _) hdrawsB hB
    ((hvars (hb3len.symm.trans hblen)).trans hchb.symm)
  obtain ⟨hqEq, hdrawsT, hpassQ⟩ := verifyZeroOpened_passes hnodes (fun before => hshortQ _) hdrawsQ hr2 hch2 hQ
    ((hvars (ha2len.symm.trans haclen)).trans hch2.symm)
  have hdrawsT : Draws outQ.2 (r3 ++ (ch3 ++ [])) := by
    rw [List.append_nil]
    exact hdrawsT
  obtain ⟨htEq, -, hpassT⟩ := verifyZeroOpened_passes hnodes (fun before => hshortT _) hdrawsT hr3 hch3 hT
    ((hvars (hb3len.symm.trans hbclen)).trans hch3.symm)
  rw [hchaEq] at haCha
  rw [hchbEq] at hbChb
  rw [hqEq] at haR2 haCh2 hoQ
  rw [htEq] at hbR3 hbCh3 hmR3 hoT
  constructor
  case sumA => exact hsumA _ haCha
  case sumB => exact hsumB _ hbChb
  case query =>
    exact hpassQ _ _ _ haR2 (ext_const r2 1).symm haCh2
      (fold_of_openings hideal hquery hch2 (not_not.mp hqcount) hoQ gamma)
  case table => exact hpassT _ _ _ hbR3 hmR3 hbCh3 (fold_of_openings hideal htable hch3 (not_not.mp htcount) hoT gamma)

end Committed

/-! ## Over a prime field -/

section Prime

variable {p : ℕ} [Fact p.Prime]

/-- The draws of the zero checks: a point and the challenges of each. -/
abbrev ZeroDraws (p lq lt : ℕ) : Type :=
  ((Fin lq → ZMod p) × (Fin lq → ZMod p)) × ((Fin lt → ZMod p) × (Fin lt → ZMod p))

variable {lq lt c : ℕ}

/-- The challenges of the zero checks, in the order drawn. -/
def zeroList (z : ZeroDraws p lq lt) : List (ZMod p) :=
  zeroChallenges (List.ofFn z.1.1) (List.ofFn z.1.2) (List.ofFn z.2.1) (List.ofFn z.2.2)

def runChallenges (ω : ZMod p × ZMod p × ZeroDraws p lq lt) : List (ZMod p) := ω.1 :: ω.2.1 :: zeroList ω.2.2

def LookupProver.run (P : LookupProver (ZMod p)) (m : List (ZMod p)) (ω : ZMod p × ZMod p × ZeroDraws p lq lt) :
    LookupProof (ZMod p) :=
  P.proof m ω.1 ω.2.1 (List.ofFn ω.2.2.1.1) (List.ofFn ω.2.2.1.2) (List.ofFn ω.2.2.2.1) (List.ofFn ω.2.2.2.2)

/-- The draws of a committed run: `γ`, `β`, those of both sums, and the zero checks. -/
abbrev CommittedDraws (p lq lt : ℕ) : Type :=
  ZMod p × ZMod p × (Fin lq → ZMod p) × (Fin lt → ZMod p) × ZeroDraws p lq lt

def committedList (ω : CommittedDraws p lq lt) : List (ZMod p) :=
  ω.1 :: ω.2.1 :: (List.ofFn ω.2.2.1 ++ (List.ofFn ω.2.2.2.1 ++ zeroList ω.2.2.2.2))

def CommittedProver.run {pcs : Pcs (ZMod p)} (P : CommittedProver pcs) (commQuery commTable : List pcs.Comm)
    (commM : pcs.Comm) (ω : CommittedDraws p lq lt) : CommittedLookupProof pcs :=
  P.proof commQuery commTable commM ω.1 ω.2.1 (List.ofFn ω.2.2.1) (List.ofFn ω.2.2.2.1) (List.ofFn ω.2.2.2.2.1.1)
    (List.ofFn ω.2.2.2.2.1.2) (List.ofFn ω.2.2.2.2.2.1) (List.ofFn ω.2.2.2.2.2.2)

theorem cast_ne_zero_of_lt {n : ℕ} (hn : n < p) (k : ℕ) (hpos : 0 < k) (hk : k ≤ n) : (k : ZMod p) ≠ 0 := by
  intro hzero
  have hdvd := (ZMod.natCast_eq_zero_iff k p).mp hzero
  exact absurd (Nat.le_of_dvd hpos hdvd) (Nat.not_le.mpr (Nat.lt_of_le_of_lt hk hn))

theorem errors_le (hc : 0 < c) : 2 ^ lt * (c - 1) + (2 ^ lq + 2 ^ lt + 2 ^ lt + 4 * (lq + lt))
      ≤ c * 2 ^ lq * 2 ^ lt + 2 ^ lq + 2 ^ lt + 4 * (lq + lt) * 3 + 8 := by
  have hrows : 2 ^ lt * (c - 1) + 2 ^ lt = c * 2 ^ lt := by
    obtain ⟨c', rfl⟩ := Nat.exists_eq_succ_of_ne_zero (Nat.ne_of_gt hc)
    rw [Nat.succ_sub_one, ← Nat.mul_succ, Nat.mul_comm]
  have hcols : c * 2 ^ lt ≤ c * 2 ^ lq * 2 ^ lt :=
    Nat.mul_le_mul_right _ (Nat.le_mul_of_pos_right c (Nat.two_pow_pos lq))
  omega

section Bound

variable {queryCols tableCols : List (List (ZMod p))}

/-- **SOUND IN THE CLEAR**. -/
theorem verifyLookup_sound (hp : 3 < p) (commitTable : List (ZMod p) → List UInt8) (hn : 2 ^ lq < p)
    (hquery : Shaped queryCols (2 ^ lq)) (htable : Shaped tableCols (2 ^ lt)) (hqc : queryCols.length = c)
    (htc : tableCols.length = c) (hout : ∃ i < 2 ^ lq, ∀ j < 2 ^ lt, row queryCols i ≠ row tableCols j)
    (m : List (ZMod p)) {P : LookupProver (ZMod p)} (hshortQ : Short P.roundsQ) (hshortT : Short P.roundsT) :
    fraction (fun ω : ZMod p × ZMod p × ZeroDraws p lq lt => ∃ tr',
      verifyLookup commitTable queryCols tableCols (P.run m ω) (replay (runChallenges ω)) = .ok tr')
    ≤ (c * 2 ^ lq * 2 ^ lt + 2 ^ lq + 2 ^ lt + 4 * (lq + lt) * 3 + 8 : ℕ) / p := by
  obtain ⟨i, hi, hrow⟩ := hout
  have hnodes : Nodes (ZMod p) 4 := nodes_zmod hp
  have hpos : 0 < c := hqc ▸ List.length_pos_iff.mpr hquery.1
  have hgame := lookup_game (x := 4 * (lq + lt)) (fun ω : ZMod p × ZMod p × ZeroDraws p lq lt => ∃ tr',
      verifyLookup commitTable queryCols tableCols (P.run m ω) (replay (runChallenges ω)) = .ok tr')
        hquery htable hqc htc hi
    hrow (cast_ne_zero_of_lt hn) (entry m) ?_
  · rw [ZMod.card] at hgame
    exact le_trans hgame (div_le_div_of_nonneg_right (Nat.cast_le.mpr (errors_le hpos)) (Nat.cast_nonneg _))
  · intro gamma beta hbalance
    have hpasses := fun (ω : ZeroDraws p lq lt) (hω : ∃ tr', verifyLookup commitTable queryCols tableCols
        (P.run m (gamma, beta, ω)) (replay (runChallenges (gamma, beta, ω))) = .ok tr') =>
      verifyLookup_passes hnodes commitTable hquery htable hshortQ hshortT List.length_ofFn List.length_ofFn
        List.length_ofFn List.length_ofFn hω.choose_spec
    have hnot : ¬ Balanced (2 ^ lq) (2 ^ lt) (entry (foldColumns queryCols gamma)) (entry (foldColumns tableCols gamma))
        (entry m) (entry (P.a [gamma, beta])) (entry (P.b [gamma, beta])) beta := fun h => hbalance ⟨_, _, h⟩
    have hequation : ((∃ i < 2 ^ lq, entry (P.a [gamma, beta]) i * (beta - entry (foldColumns queryCols gamma) i) ≠ 1)
          ∨ ∃ j < 2 ^ lt, entry (P.b [gamma, beta]) j * (beta - entry (foldColumns tableCols gamma) j) ≠ entry m j) →
        fraction (fun ω : ZeroDraws p lq lt => ∃ tr', verifyLookup commitTable queryCols tableCols
          (P.run m (gamma, beta, ω)) (replay (runChallenges (gamma, beta, ω))) = .ok tr')
        ≤ (4 * (lq + lt) : ℕ) / Fintype.card (ZMod p) := by
      intro hfails
      refine zero_game (fun r => polys fun before => P.roundsQ (gamma :: beta :: (r ++ before)))
        (fun u r => polys fun before =>
          P.roundsT (gamma :: beta :: (List.ofFn u.1 ++ (List.ofFn u.2 ++ (r ++ before))))) ?_ ?_ hfails ?_ ?_
      · intro r before
        exact Short.natDegree_le hnodes (fun b => hshortQ _) before
      · intro u r before
        exact Short.natDegree_le hnodes (fun b => hshortT _) before
      · intro ω hω
        exact (hpasses ω hω).2.1
      · intro ω hω
        exact (hpasses ω hω).2.2
    rcases fails_of_not_balanced hnot with hfails | hfails | hsums
    · exact hequation (.inl hfails)
    · exact hequation (.inr hfails)
    · rw [fraction_eq_zero fun ω hω => hsums (hpasses ω hω).1]
      exact share_nonneg _

end Bound

section CommittedBound

variable {pcs : Pcs (ZMod p)} {committed : pcs.Comm → List (ZMod p)} {commQuery commTable : List pcs.Comm}

/-- **SOUND, COMMITTED**. -/
theorem verifyCommittedLookup_sound (hp : 3 < p) (hideal : Ideal pcs committed) (hn : 2 ^ lq < p)
    (hquery : Shaped (commQuery.map committed) (2 ^ lq)) (htable : Shaped (commTable.map committed) (2 ^ lt))
    (hqc : commQuery.length = c) (htc : commTable.length = c)
    (hout : ∃ i < 2 ^ lq, ∀ j < 2 ^ lt, row (commQuery.map committed) i ≠ row (commTable.map committed) j)
    (commM : pcs.Comm) {P : CommittedProver pcs} (hshortA : Short P.roundsA) (hshortB : Short P.roundsB)
    (hshortQ : Short P.roundsQ) (hshortT : Short P.roundsT) : fraction (fun ω : CommittedDraws p lq lt => ∃ tr',
      verifyCommittedLookup (2 ^ lq) (2 ^ lt) (P.run commQuery commTable commM ω) (replay (committedList ω)) = .ok tr')
    ≤ (c * 2 ^ lq * 2 ^ lt + 2 ^ lq + 2 ^ lt + 4 * (lq + lt) * 3 + 8 : ℕ) / p := by
  obtain ⟨i, hi, hrow⟩ := hout
  have hnodes : Nodes (ZMod p) 4 := nodes_zmod hp
  have hpos : 0 < c := by
    have hlen := List.length_pos_iff.mpr hquery.1
    rwa [List.length_map, hqc] at hlen
  have hgame := lookup_game (x := 4 * (lq + lt)) (fun ω : CommittedDraws p lq lt => ∃ tr',
      verifyCommittedLookup (2 ^ lq) (2 ^ lt) (P.run commQuery commTable commM ω) (replay (committedList ω)) = .ok tr')
    hquery htable ((List.length_map _).trans hqc) ((List.length_map _).trans htc) hi hrow (cast_ne_zero_of_lt hn)
    (entry (committed commM)) ?_
  · rw [ZMod.card] at hgame
    exact le_trans hgame (div_le_div_of_nonneg_right (Nat.cast_le.mpr (errors_le hpos)) (Nat.cast_nonneg _))
  · intro gamma beta hbalance
    have hshows := fun (ω : (Fin lq → ZMod p) × (Fin lt → ZMod p) × ZeroDraws p lq lt) (hω : ∃ tr',
        verifyCommittedLookup (2 ^ lq) (2 ^ lt) (P.run commQuery commTable commM (gamma, beta, ω))
          (replay (committedList (gamma, beta, ω))) = .ok tr') =>
      verifyCommittedLookup_shows hnodes hideal hquery htable hshortA hshortB hshortQ hshortT List.length_ofFn
        List.length_ofFn List.length_ofFn List.length_ofFn List.length_ofFn List.length_ofFn hω.choose_spec
    have hnot : ¬ Balanced (2 ^ lq) (2 ^ lt) (entry (foldColumns (commQuery.map committed) gamma))
        (entry (foldColumns (commTable.map committed) gamma)) (entry (committed commM))
        (entry (committed (P.commA [gamma, beta]))) (entry (committed (P.commB [gamma, beta]))) beta :=
      fun h => hbalance ⟨_, _, h⟩
    refine committed_game (polys fun before => P.roundsA (gamma :: beta :: before))
      (fun u => polys fun before => P.roundsB (gamma :: beta :: (List.ofFn u ++ before)))
      (fun u w r => polys fun before => P.roundsQ (gamma :: beta :: (List.ofFn u ++ (List.ofFn w ++ (r ++ before)))))
      (fun u w z r => polys fun before => P.roundsT
        (gamma :: beta :: (List.ofFn u ++ (List.ofFn w ++ (List.ofFn z.1 ++ (List.ofFn z.2 ++ (r ++ before)))))))
      (P.sum [gamma, beta]) ?_ ?_ ?_ ?_ hnot ?_ ?_ ?_ ?_
    · intro before
      exact Short.natDegree_le hnodes (fun b => hshortA _) before
    · intro u before
      exact Short.natDegree_le hnodes (fun b => hshortB _) before
    · intro u w r before
      exact Short.natDegree_le hnodes (fun b => hshortQ _) before
    · intro u w z r before
      exact Short.natDegree_le hnodes (fun b => hshortT _) before
    · intro ω hω
      exact (hshows ω hω).sumA
    · intro ω hω
      exact (hshows ω hω).sumB
    · intro ω hω
      exact (hshows ω hω).query
    · intro ω hω
      exact (hshows ω hω).table

end CommittedBound

/-- **LOOKUPS**: a query that the table answers is proved and accepted at every `β` that is
    no fold, and a query that it does not answer is accepted at few challenges, in the
    clear and committed. -/
theorem lookup_complete_and_sound (hp : 3 < p) (commitTable : List (ZMod p) → List UInt8) {pcs : Pcs (ZMod p)}
    {committed : pcs.Comm → List (ZMod p)} (hideal : Ideal pcs committed) (lq lt : ℕ) :
    (∀ (queryCols tableCols : List (List (ZMod p))) (tr : Transcript (ZMod p)), Answered lq lt queryCols tableCols →
      ∃ m, multiplicities (queryCols.headD []) (tableCols.headD []) = .ok m
        ∧ (Misses (bindAndChallenge commitTable queryCols tableCols m tr).1.2
            (foldColumns queryCols (bindAndChallenge commitTable queryCols tableCols m tr).1.1) →
          Misses (bindAndChallenge commitTable queryCols tableCols m tr).1.2
            (foldColumns tableCols (bindAndChallenge commitTable queryCols tableCols m tr).1.1) →
          ∃ proof tr', proveLookup commitTable queryCols tableCols tr = .ok (proof, tr')
            ∧ verifyLookup commitTable queryCols tableCols proof tr = .ok tr')
        ∧ (Misses (bindCommitted (queryCols.map pcs.commit) (tableCols.map pcs.commit) (pcs.commit m) tr).1.2
            (foldColumns queryCols
              (bindCommitted (queryCols.map pcs.commit) (tableCols.map pcs.commit) (pcs.commit m) tr).1.1) →
          Misses (bindCommitted (queryCols.map pcs.commit) (tableCols.map pcs.commit) (pcs.commit m) tr).1.2
            (foldColumns tableCols
              (bindCommitted (queryCols.map pcs.commit) (tableCols.map pcs.commit) (pcs.commit m) tr).1.1) →
          ∃ proof tr', proveCommittedLookup pcs queryCols tableCols tr = .ok (proof, tr')
            ∧ verifyCommittedLookup (2 ^ lq) (2 ^ lt) proof tr = .ok tr'))
    ∧ (∀ (queryCols tableCols : List (List (ZMod p))) (c : ℕ) (m : List (ZMod p)) (P : LookupProver (ZMod p)),
      2 ^ lq < p → Shaped queryCols (2 ^ lq) → Shaped tableCols (2 ^ lt) → queryCols.length = c → tableCols.length = c →
      (∃ i < 2 ^ lq, ∀ j < 2 ^ lt, row queryCols i ≠ row tableCols j) → Short P.roundsQ → Short P.roundsT →
      fraction (fun ω : ZMod p × ZMod p × ZeroDraws p lq lt => ∃ tr',
        verifyLookup commitTable queryCols tableCols (P.run m ω) (replay (runChallenges ω)) = .ok tr')
      ≤ (c * 2 ^ lq * 2 ^ lt + 2 ^ lq + 2 ^ lt + 4 * (lq + lt) * 3 + 8 : ℕ) / p)
    ∧ ∀ (commQuery commTable : List pcs.Comm) (commM : pcs.Comm) (c : ℕ) (P : CommittedProver pcs), 2 ^ lq < p →
      Shaped (commQuery.map committed) (2 ^ lq) → Shaped (commTable.map committed) (2 ^ lt) → commQuery.length = c →
      commTable.length = c →
      (∃ i < 2 ^ lq, ∀ j < 2 ^ lt, row (commQuery.map committed) i ≠ row (commTable.map committed) j) →
      Short P.roundsA → Short P.roundsB → Short P.roundsQ → Short P.roundsT →
      fraction (fun ω : CommittedDraws p lq lt => ∃ tr',
        verifyCommittedLookup (2 ^ lq) (2 ^ lt) (P.run commQuery commTable commM ω)
          (replay (committedList ω)) = .ok tr')
      ≤ (c * 2 ^ lq * 2 ^ lt + 2 ^ lq + 2 ^ lt + 4 * (lq + lt) * 3 + 8 : ℕ) / p := by
  refine ⟨?_, ?_, ?_⟩
  · intro queryCols tableCols tr h
    obtain ⟨m, hm, hclear⟩ := lookup_complete (nodes_zmod hp) commitTable h tr
    obtain ⟨m', hm', hcommitted⟩ := committedLookup_complete (nodes_zmod hp) hideal h tr
    obtain rfl := Except.ok.inj (hm.symm.trans hm')
    exact ⟨m, hm, hclear, hcommitted⟩
  · intro queryCols tableCols c m P hn hquery htable hqc htc hout hshortQ hshortT
    exact verifyLookup_sound hp commitTable hn hquery htable hqc htc hout m hshortQ hshortT
  · intro commQuery commTable commM c P hn hquery htable hqc htc hout hshortA hshortB hshortQ hshortT
    exact verifyCommittedLookup_sound hp hideal hn hquery htable hqc htc hout commM hshortA hshortB hshortQ hshortT

end Prime

/-! ## One query over thirty-one elements -/

section Samples

instance fact_prime_31 : Fact (Nat.Prime 31) := ⟨by decide⟩

/-- Commitments that are the tables. -/
def shownPcs : Pcs (ZMod 31) where
  Comm := List (ZMod 31)
  Opening := Unit
  commit := id
  open' := fun _ _ => ()
  bytes := fun t => t.map fun x => UInt8.ofNat x.val
  verify := fun t point value _ => t.length = 2 ^ point.length ∧ value = mle t point

theorem shownPcs_ideal : Ideal shownPcs id := by
  constructor
  case commits => exact fun _ _ _ => rfl
  case verifies => exact fun _ _ _ _ => decide_eq_true_iff

/-- A prover that sends the same whatever it is asked. -/
def sampleProver : LookupProver (ZMod 31) where
  a := fun _ => [1]
  b := fun _ => [1]
  roundsQ := fun _ => []
  roundsT := fun _ => []
  countQ := fun _ => 0
  countT := fun _ => 0

/-- The query (1, 2) of the table (0, 3), (1, 2) is answered, and the query 1 of the table 2
    accepted for at most 11 of 31 challenges. -/
theorem lookup_complete_and_sound_sample :
    (∃ proof tr', proveLookup (fun _ => []) [[1], [2]] [[0, 1], [3, 2]]
      (replay ([2, 4] : List (ZMod 31))) = .ok (proof, tr')
      ∧ verifyLookup (fun _ => []) [[1], [2]] [[0, 1], [3, 2]] proof (replay ([2, 4] : List (ZMod 31))) = .ok tr')
    ∧ fraction (fun ω : ZMod 31 × ZMod 31 × ZeroDraws 31 0 0 => ∃ tr',
      verifyLookup (fun _ => []) [[1]] [[2]] (sampleProver.run [1] ω) (replay (runChallenges ω)) = .ok tr')
      ≤ (1 * 2 ^ 0 * 2 ^ 0 + 2 ^ 0 + 2 ^ 0 + 4 * (0 + 0) * 3 + 8 : ℕ) / (31 : ℕ) := by
  constructor
  · obtain ⟨m, -, hclear, -⟩ := (lookup_complete_and_sound (p := 31) (by decide) (fun _ => []) shownPcs_ideal 0 1).1
      [[1], [2]] [[0, 1], [3, 2]] (replay [2, 4]) ⟨by decide, by decide, by decide, by decide⟩
    obtain ⟨hchallenges, -⟩ := bindAndChallenge_draws (fun _ => []) [[1], [2]] [[0, 1], [3, 2]] m
      (replay_draws ([2, 4] : List (ZMod 31)))
    rw [hchallenges] at hclear
    exact hclear (by decide) (by decide)
  · refine (lookup_complete_and_sound (p := 31) (by decide) (fun _ => []) shownPcs_ideal 0 0).2.1 [[1]] [[2]] 1 [1]
      sampleProver (by decide) (by decide) (by decide) rfl rfl (by decide) ?_ ?_
    · exact fun _ => Nat.zero_le 4
    · exact fun _ => Nat.zero_le 4

end Samples

end LookupSound
