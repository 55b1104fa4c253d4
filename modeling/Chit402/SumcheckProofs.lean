import Chit402.MleProofs
import Chit402.TranscriptProofs
import Mathlib.LinearAlgebra.Lagrange

/-! # The product sumcheck

    `prove_product` and `verify_product` for two tables, whose round
    polynomials are sent as three evaluations, and `prove_product_multi` and
    `verify_product_multi` for any number of tables.  Both run one loop over
    the rounds, which differs in what a round sends. -/

namespace Sumcheck

open ExceptFlow Multilinear Mle FiatShamir Finset

variable {F : Type} [Field F]

/-! ## Round messages -/

/-- `[Fr; 3]`: the evaluations at 0, 1 and 2. -/
structure Evals3 (F : Type) where
  e0 : F
  e1 : F
  e2 : F

structure SumcheckProof (F : Type) where
  roundEvals : List (Evals3 F)

/-- A sumcheck proof for any number of tables. -/
structure MultiSumcheckProof (F : Type) where
  roundEvals : List (List F)

section Formats

variable [DecidableEq F]

def inverse (x : F) : Except Abort F := do
  revertIf (x = 0) .panic
  .ok x⁻¹

def evalUniAt (evals : Evals3 F) (x : F) : Except Abort F := do
  let twoInv ← inverse 2
  let l0 := (x - 1) * (x - 2) * twoInv
  let l1 := -(x * (x - 2))
  let l2 := x * (x - 1) * twoInv
  .ok (evals.e0 * l0 + evals.e1 * l1 + evals.e2 * l2)

/-- The term of the node `i`. -/
def lagrangeTerm (evals : List F) (x : F) (i : ℕ) : Except Abort F := do
  let others := (List.range evals.length).filter (· ≠ i)
  let num := (others.map fun j : ℕ => x - (j : F)).prod
  let den := (others.map fun j : ℕ => (i : F) - (j : F)).prod
  let inv ← inverse den
  .ok (entry evals i * num * inv)

def lagrangeEval (evals : List F) (x : F) : Except Abort F := do
  let terms ← (List.range evals.length).mapM (lagrangeTerm evals x)
  .ok terms.sum

/-- How the messages of a kind of sumcheck are absorbed, checked and evaluated. -/
structure RoundFormat (F E : Type) where
  absorb : E → Transcript F → Transcript F
  adds : E → F → Bool
  next : E → F → Except Abort F

def tripleFormat : RoundFormat F (Evals3 F) where
  absorb e tr := ((tr.absorbField (label "s0") e.e0).absorbField (label "s1") e.e1).absorbField (label "s2") e.e2
  adds e claim := e.e0 + e.e1 = claim
  next := evalUniAt

def listFormat : RoundFormat F (List F) where
  absorb e tr := e.foldl (fun tr x => tr.absorbField (label "m") x) tr
  adds e claim := 2 ≤ e.length ∧ entry e 0 + entry e 1 = claim
  next := lagrangeEval

end Formats

/-! ## The prover -/

section Prover

variable {E S : Type}

/-- The rounds of a prover in the state `st`: the messages, the challenges and the last state. -/
def proveRounds (fmt : RoundFormat F E) (message : S → E) (next : F → S → S) :
    ℕ → S → Transcript F → (List E × List F × S) × Transcript F
  | 0, st, tr => (([], [], st), tr)
  | s + 1, st, tr =>
    let e := message st
    let drawn := (fmt.absorb e tr).challenge (label "r")
    let rest := proveRounds fmt message next s (next drawn.1 st) drawn.2
    ((e :: rest.1.1, drawn.1 :: rest.1.2.1, rest.1.2.2), rest.2)

/-- The high bit of a table is fixed to `ch`. -/
def foldTable (ch : F) (t : List F) : List F :=
  let half := t.length / 2
  (List.range half).map fun r => entry t r + ch * (entry t (half + r) - entry t r)

def productEvals (st : List F × List F) : Evals3 F :=
  let half := st.1.length / 2
  { e0 := ∑ r ∈ range half, entry st.1 r * entry st.2 r
    e1 := ∑ r ∈ range half, entry st.1 (half + r) * entry st.2 (half + r)
    e2 := ∑ r ∈ range half, (entry st.1 (half + r) + entry st.1 (half + r) - entry st.1 r)
      * (entry st.2 (half + r) + entry st.2 (half + r) - entry st.2 r) }

def foldPair (ch : F) (st : List F × List F) : List F × List F := (foldTable ch st.1, foldTable ch st.2)

/-- The proof, the challenges, and the two tables at them. -/
def proveProduct [DecidableEq F] (fa ga : List F) (tr : Transcript F) :
    Except Abort ((SumcheckProof F × List F × F × F) × Transcript F) := do
  revertIf (fa.length ≠ ga.length) .panic
  let s ← log2Exact fa.length
  let out := proveRounds tripleFormat productEvals foldPair s (fa, ga) tr
  .ok ((⟨out.1.1⟩, out.1.2.1, entry out.1.2.2.1 0, entry out.1.2.2.2 0), out.2)

def multiEvals (tables : List (List F)) : List F :=
  let half := (tables.headD []).length / 2
  (List.range (tables.length + 1)).map fun xi : ℕ =>
    ∑ r ∈ range half, (tables.map fun t => entry t r + (xi : F) * (entry t (half + r) - entry t r)).prod

/-- The proof, the challenges, and the tables at them. -/
def proveProductMulti [DecidableEq F] (tables : List (List F)) (tr : Transcript F) :
    Except Abort ((MultiSumcheckProof F × List F × List F) × Transcript F) := do
  revertIf (tables.length = 0) .panic
  let len := (tables.headD []).length
  revertIf (∃ t ∈ tables, t.length ≠ len) .panic
  let s ← log2Exact len
  let out := proveRounds listFormat multiEvals (fun ch => List.map (foldTable ch)) s tables tr
  .ok ((⟨out.1.1⟩, out.1.2.1, out.1.2.2.map fun t => entry t 0), out.2)

end Prover

/-! ## The verifier -/

/-- The challenges, and the claim that is left. -/
def verifyRounds {E : Type} (fmt : RoundFormat F E) :
    List E → F → Transcript F → Except Abort ((List F × F) × Transcript F)
  | [], claim, tr => .ok (([], claim), tr)
  | e :: es, claim, tr => do
      revertIf (fmt.adds e claim = false) .reject
      let drawn := (fmt.absorb e tr).challenge (label "r")
      let claim ← fmt.next e drawn.1
      let rest ← verifyRounds fmt es claim drawn.2
      .ok ((drawn.1 :: rest.1.1, rest.1.2), rest.2)

omit [Field F] in
theorem verifyRounds_cons {E : Type} (fmt : RoundFormat F E) (e : E) (es : List E) (claim : F) (tr : Transcript F) :
    verifyRounds fmt (e :: es) claim tr = (do
      revertIf (fmt.adds e claim = false) .reject
      let claim ← fmt.next e ((fmt.absorb e tr).challenge (label "r")).1
      let rest ← verifyRounds fmt es claim ((fmt.absorb e tr).challenge (label "r")).2
      .ok ((((fmt.absorb e tr).challenge (label "r")).1 :: rest.1.1, rest.1.2), rest.2)) := rfl

def verifyProduct [DecidableEq F] (proof : SumcheckProof F) :
    F → Transcript F → Except Abort ((List F × F) × Transcript F) :=
  verifyRounds tripleFormat proof.roundEvals

def verifyProductMulti [DecidableEq F] (proof : MultiSumcheckProof F) :
    F → Transcript F → Except Abort ((List F × F) × Transcript F) :=
  verifyRounds listFormat proof.roundEvals

/-! ## What the messages stand for -/

section Messages

open Polynomial

/-- The nodes `0, …, n - 1` are distinct in the field. -/
def Nodes (F : Type) [Field F] (n : ℕ) : Prop := Set.InjOn (fun i : ℕ => (i : F)) (range n)

theorem Nodes.mono {n k : ℕ} (h : Nodes F n) (hk : k ≤ n) : Nodes F k :=
  Set.InjOn.mono (fun _ hi => mem_range.mpr (Nat.lt_of_lt_of_le (mem_range.mp hi) hk)) h

/-- A message stands for a polynomial: its check and its value are the polynomial's. -/
structure RoundFormat.Sends {E : Type} (fmt : RoundFormat F E) (e : E) (g : F[X]) : Prop where
  sums : ∀ claim, fmt.adds e claim = true → g.eval 0 + g.eval 1 = claim
  next : ∀ x, fmt.next e x = .ok (g.eval x)

/-- The polynomial through the evaluations of a message. -/
noncomputable def interpolated (evals : List F) : F[X] :=
  Lagrange.interpolate (range evals.length) (fun i => (i : F)) (entry evals)

theorem prod_others (n i : ℕ) (f : ℕ → F) :
    (((List.range n).filter (· ≠ i)).map f).prod = ∏ j ∈ (range n).erase i, f j := by
  have hset : ((List.range n).filter (· ≠ i)).toFinset = (range n).erase i := by
    ext j
    simp only [List.mem_toFinset, List.mem_filter, List.mem_range, decide_eq_true_eq, mem_erase, mem_range]
    exact and_comm
  rw [← hset, List.prod_toFinset _ (List.nodup_range.filter _)]

theorem interpolated_eval {evals : List F} (hnodes : Nodes F evals.length) {i : ℕ} (hi : i < evals.length) :
    (interpolated evals).eval (i : F) = entry evals i :=
  Lagrange.eval_interpolate_at_node _ hnodes (mem_range.mpr hi)

theorem interpolated_natDegree_le {evals : List F} (hnodes : Nodes F evals.length) :
    (interpolated evals).natDegree ≤ evals.length - 1 := by
  refine natDegree_le_of_degree_le ?_
  have hdeg := Lagrange.degree_interpolate_le (entry evals) hnodes
  rw [card_range] at hdeg
  exact hdeg

theorem interpolated_of_eval {evals : List F} {g : F[X]} (hnodes : Nodes F evals.length)
    (hdeg : g.natDegree < evals.length) (hevals : ∀ i < evals.length, entry evals i = g.eval (i : F)) :
    interpolated evals = g := by
  refine (Lagrange.eq_interpolate_of_eval_eq _ hnodes ?_ fun i hi => (hevals i (mem_range.mp hi)).symm).symm
  rw [card_range]
  exact lt_of_le_of_lt degree_le_natDegree (Nat.cast_lt.mpr hdeg)

/-- The polynomial through three evaluations. -/
noncomputable def triplePoly (e : Evals3 F) : F[X] :=
  C (e.e0 * 2⁻¹) * ((X - C 1) * (X - C 2)) - C e.e1 * (X * (X - C 2)) + C (e.e2 * 2⁻¹) * (X * (X - C 1))

theorem triplePoly_natDegree_le (e : Evals3 F) : (triplePoly e).natDegree ≤ 2 := by
  rw [triplePoly]
  compute_degree

theorem two_ne_zero_of_nodes (hnodes : Nodes F 3) : (2 : F) ≠ 0 := by
  intro h
  have hinj := hnodes (mem_range.mpr (show 2 < 3 by decide)) (mem_range.mpr (show 0 < 3 by decide))
    (show ((2 : ℕ) : F) = ((0 : ℕ) : F) by rw [Nat.cast_ofNat, Nat.cast_zero, h])
  exact absurd hinj (by decide)

variable [DecidableEq F]

theorem inverse_of_ne {x : F} (h : x ≠ 0) : inverse x = .ok x⁻¹ := by
  rw [inverse, revertIf_of_not _ h]
  rfl

theorem lagrangeTerm_eq {evals : List F} (hnodes : Nodes F evals.length) (x : F) {i : ℕ} (hi : i < evals.length) :
    lagrangeTerm evals x i
      = .ok (entry evals i * (Lagrange.basis (range evals.length) (fun i : ℕ => (i : F)) i).eval x) := by
  have hden : (((List.range evals.length).filter (· ≠ i)).map fun j : ℕ => (i : F) - (j : F)).prod ≠ 0 := by
    rw [prod_others]
    refine prod_ne_zero_iff.mpr fun j hj => ?_
    have hne : (i : F) ≠ j := fun heq =>
      (mem_erase.mp hj).1 (hnodes (mem_range.mpr hi) (mem_erase.mp hj).2 heq).symm
    exact sub_ne_zero.mpr hne
  have hbasis : (Lagrange.basis (range evals.length) (fun i : ℕ => (i : F)) i).eval x
      = (∏ j ∈ (range evals.length).erase i, (x - j)) * (∏ j ∈ (range evals.length).erase i, ((i : F) - j))⁻¹ := by
    rw [Lagrange.basis, eval_prod, ← prod_inv_distrib, ← prod_mul_distrib]
    refine prod_congr rfl fun j _ => ?_
    rw [Lagrange.basisDivisor, eval_mul, eval_C, eval_sub, eval_X, eval_C]
    exact mul_comm _ _
  rw [lagrangeTerm, inverse_of_ne hden, prod_others, prod_others, hbasis, ← mul_assoc]
  rfl

theorem lagrangeEval_eq {evals : List F} (hnodes : Nodes F evals.length) (x : F) :
    lagrangeEval evals x = .ok ((interpolated evals).eval x) := by
  have hterms : (List.range evals.length).mapM (lagrangeTerm evals x)
      = .ok ((List.range evals.length).map fun i =>
        entry evals i * (Lagrange.basis (range evals.length) (fun i : ℕ => (i : F)) i).eval x) := by
    rw [mapM_ok_iff, List.forall₂_map_right_iff, List.forall₂_same]
    exact fun i hi => lagrangeTerm_eq hnodes x (List.mem_range.mp hi)
  rw [lagrangeEval, hterms, interpolated, Lagrange.interpolate_apply, eval_finsetSum, ok_bind,
    ← List.sum_toFinset _ List.nodup_range,
    List.toFinset_range]
  refine congrArg Except.ok (sum_congr rfl fun i _ => ?_)
  rw [eval_mul, eval_C]

theorem listFormat_sends {e : List F} (hnodes : Nodes F e.length) : listFormat.Sends e (interpolated e) := by
  constructor
  case sums =>
    intro claim hadds
    obtain ⟨hlen, hsum⟩ := of_decide_eq_true hadds
    have h0 := interpolated_eval hnodes (show 0 < e.length from Nat.lt_of_lt_of_le Nat.zero_lt_two hlen)
    have h1 := interpolated_eval hnodes (show 1 < e.length from hlen)
    rw [Nat.cast_zero] at h0
    rw [Nat.cast_one] at h1
    rw [h0, h1, hsum]
  case next => exact fun x => lagrangeEval_eq hnodes x

/-- Three evaluations stand for the polynomial through them. -/
theorem tripleFormat_sends (hnodes : Nodes F 3) (e : Evals3 F) : tripleFormat.Sends e (triplePoly e) := by
  have h2 : (2 : F) ≠ 0 := two_ne_zero_of_nodes hnodes
  constructor
  case sums =>
    intro claim hadds
    have hsum : e.e0 + e.e1 = claim := of_decide_eq_true hadds
    rw [triplePoly, ← hsum]
    simp only [eval_add, eval_sub, eval_mul, eval_C, eval_X]
    field_simp
    ring
  case next =>
    intro x
    show evalUniAt e x = _
    rw [evalUniAt, inverse_of_ne h2, triplePoly]
    refine congrArg Except.ok ?_
    simp only [eval_add, eval_sub, eval_mul, eval_C, eval_X]
    ring

end Messages

/-! ## Completeness -/

section Complete

open Polynomial

/-- The functions that tables are. -/
def entries (ts : List (List F)) : List (ℕ → F) := ts.map entry

theorem half_pow (n : ℕ) : 2 ^ (n + 1) / 2 = 2 ^ n := by
  rw [pow_succ, Nat.mul_div_cancel _ Nat.zero_lt_two]

theorem length_foldTable {t : List F} {n : ℕ} (h : t.length = 2 ^ (n + 1)) (c : F) :
    (foldTable c t).length = 2 ^ n := by
  rw [foldTable, List.length_map, List.length_range, h, half_pow]

theorem foldTable_entry {t : List F} {n x : ℕ} (h : t.length = 2 ^ (n + 1)) (c : F) (hx : x < 2 ^ n) :
    entry (foldTable c t) x = fold n c (entry t) x := by
  rw [foldTable, h, half_pow, entry_map_range _ hx]
  rfl

theorem mle_cons {t r : List F} (h : t.length = 2 ^ (r.length + 1)) (c : F) : mle t (c :: r) = mle (foldTable c t) r :=
  ext_congr fun _ hx => (foldTable_entry h c hx).symm

theorem cubeSum_foldTable {ts : List (List F)} {n : ℕ} (h : ∀ t ∈ ts, t.length = 2 ^ (n + 1)) (c : F) :
    cubeSum n (entries (ts.map (foldTable c))) = (roundPoly n (entries ts)).eval c := by
  rw [roundPoly_eval]
  refine sum_congr rfl fun x hx => ?_
  rw [entries, entries, List.map_map, List.map_map, List.map_map, List.map_map]
  refine congrArg List.prod (List.map_congr_left fun t ht => ?_)
  exact foldTable_entry (h t ht) c (mem_range.mp hx)

/-- A prover that sends the round polynomials of its tables, and folds them. -/
structure Honest {E S : Type} (fmt : RoundFormat F E) (message : S → E) (next : F → S → S)
    (tables : S → List (List F)) (d : ℕ) : Prop where
  sends : ∀ n st, (tables st).length = d → (∀ t ∈ tables st, t.length = 2 ^ (n + 1)) →
    fmt.Sends (message st) (roundPoly n (entries (tables st)))
    ∧ fmt.adds (message st) (cubeSum (n + 1) (entries (tables st))) = true
  folds : ∀ c st, (tables st).length = d → tables (next c st) = (tables st).map (foldTable c)

/-- **COMPLETENESS**: the verifier follows an honest prover, to the product of its tables
    at the challenges, which the prover ends with. -/
theorem rounds_complete {E S : Type} {fmt : RoundFormat F E} {message : S → E} {next : F → S → S}
    {tables : S → List (List F)} {d : ℕ} (hhonest : Honest fmt message next tables d) (s : ℕ) (st : S)
    (tr : Transcript F) (hd : (tables st).length = d) (hlen : ∀ t ∈ tables st, t.length = 2 ^ s) :
    (proveRounds fmt message next s st tr).1.2.1.length = s
    ∧ (tables (proveRounds fmt message next s st tr).1.2.2).map (fun t => entry t 0)
      = (tables st).map (fun t => mle t (proveRounds fmt message next s st tr).1.2.1)
    ∧ verifyRounds fmt (proveRounds fmt message next s st tr).1.1 (cubeSum s (entries (tables st))) tr
      = .ok (((proveRounds fmt message next s st tr).1.2.1,
          ((tables st).map (fun t => mle t (proveRounds fmt message next s st tr).1.2.1)).prod),
        (proveRounds fmt message next s st tr).2) := by
  induction s generalizing st tr with
  | zero =>
    refine ⟨rfl, rfl, ?_⟩
    have hsum : cubeSum 0 (entries (tables st)) = ((tables st).map fun t => mle t []).prod := by
      rw [cubeSum, pow_zero, sum_range_one, entries, List.map_map]
      rfl
    rw [hsum]
    rfl
  | succ s ih =>
    obtain ⟨hsends, hadds⟩ := hhonest.sends s st hd hlen
    have hfolds : ∀ c, tables (next c st) = (tables st).map (foldTable c) := fun c => hhonest.folds c st hd
    have hstep := ih (next ((fmt.absorb (message st) tr).challenge (label "r")).1 st)
      ((fmt.absorb (message st) tr).challenge (label "r")).2
      (by rw [hfolds, List.length_map, hd])
      (by
        rw [hfolds]
        intro t ht
        obtain ⟨u, hu, rfl⟩ := List.mem_map.mp ht
        exact length_foldTable (hlen u hu) _)
    obtain ⟨hchs, hfinals, hverify⟩ := hstep
    -- the point of the whole run begins with this round's challenge
    have hpoint : ∀ t ∈ tables st, mle t (proveRounds fmt message next (s + 1) st tr).1.2.1
        = mle (foldTable ((fmt.absorb (message st) tr).challenge (label "r")).1 t)
          (proveRounds fmt message next s (next ((fmt.absorb (message st) tr).challenge (label "r")).1 st)
            ((fmt.absorb (message st) tr).challenge (label "r")).2).1.2.1 :=
      fun t ht => mle_cons (by rw [hchs]; exact hlen t ht) _
    have hmap := List.map_congr_left hpoint
    refine ⟨congrArg (· + 1) hchs, ?_, ?_⟩
    · rw [hmap]
      refine hfinals.trans ?_
      rw [hfolds, List.map_map]
      rfl
    · rw [hmap]
      show verifyRounds fmt (message st :: _) _ tr = _
      rw [verifyRounds_cons, guarded_of_not (ne_false_of_eq_true hadds), hsends.next, ok_bind,
        ← cubeSum_foldTable hlen, ← hfolds, hverify, hfolds, List.map_map]
      rfl

variable [DecidableEq F]

/-- The messages of `prove_product_multi` are honest. -/
theorem multi_honest {d : ℕ} (hd : 0 < d) (hnodes : Nodes F (d + 1)) :
    Honest listFormat multiEvals (fun ch => List.map (foldTable ch)) id d (F := F) := by
  constructor
  case folds => exact fun c ts _ => rfl
  case sends =>
    intro n ts hts hlen
    have hlength : (multiEvals ts).length = d + 1 := by
      rw [multiEvals, List.length_map, List.length_range]
      exact congrArg (· + 1) hts
    have hhead : (ts.headD []).length / 2 = 2 ^ n := by
      cases ts with
      | nil => exact absurd hts.symm (Nat.ne_of_gt hd)
      | cons t ts => exact (congrArg (· / 2) (hlen t List.mem_cons_self)).trans (half_pow n)
    have hentry : ∀ i < d + 1, entry (multiEvals ts) i = (roundPoly n (entries ts)).eval (i : F) := by
      intro i hi
      rw [multiEvals, entry_map_range _ (by rwa [show ts.length = d from hts]), hhead, roundPoly_eval]
      refine sum_congr rfl fun x _ => congrArg List.prod ?_
      rw [entries, List.map_map, List.map_map]
      rfl
    have hmessage : interpolated (multiEvals ts) = roundPoly n (entries ts) := by
      refine interpolated_of_eval (by rwa [hlength]) ?_ (by rwa [hlength])
      rw [hlength]
      refine Nat.lt_succ_of_le (le_trans (roundPoly_natDegree_le n _) (le_of_eq ?_))
      rw [entries, List.length_map]
      exact hts
    have hsends := listFormat_sends (show Nodes F (multiEvals ts).length by rwa [hlength])
    rw [hmessage] at hsends
    refine ⟨hsends, decide_eq_true ⟨?_, ?_⟩⟩
    · rw [hlength]
      exact Nat.succ_le_succ hd
    · show entry (multiEvals ts) 0 + entry (multiEvals ts) 1 = cubeSum (n + 1) (entries ts)
      rw [hentry 0 (Nat.succ_pos d), hentry 1 (Nat.succ_lt_succ hd), Nat.cast_zero, Nat.cast_one, cubeSum_succ]

/-- Three evaluations stand for any quadratic that has them. -/
theorem tripleFormat_sends_of_eval (hnodes : Nodes F 3) {e : Evals3 F} {g : F[X]} (hdeg : g.natDegree ≤ 2)
    (h0 : g.eval 0 = e.e0) (h1 : g.eval 1 = e.e1) (h2 : g.eval 2 = e.e2) : tripleFormat.Sends e g := by
  have htwo : (2 : F) ≠ 0 := two_ne_zero_of_nodes hnodes
  have hlist : ∀ p : F[X], p.natDegree ≤ 2 → p.eval 0 = e.e0 → p.eval 1 = e.e1 → p.eval 2 = e.e2 →
      interpolated [e.e0, e.e1, e.e2] = p := by
    intro p hp hp0 hp1 hp2
    refine interpolated_of_eval hnodes (Nat.lt_succ_of_le hp) fun i hi => ?_
    have hcases : i = 0 ∨ i = 1 ∨ i = 2 := by
      have : i < 3 := hi
      omega
    rcases hcases with rfl | rfl | rfl
    · rw [Nat.cast_zero, hp0]
      rfl
    · rw [Nat.cast_one, hp1]
      rfl
    · rw [Nat.cast_ofNat, hp2]
      rfl
  have htriple : interpolated [e.e0, e.e1, e.e2] = triplePoly e := by
    refine hlist _ (triplePoly_natDegree_le e) ?_ ?_ ?_
    · simp only [triplePoly, eval_add, eval_sub, eval_mul, eval_C, eval_X]
      field_simp
      ring
    · simp only [triplePoly, eval_add, eval_sub, eval_mul, eval_C, eval_X]
      ring
    · simp only [triplePoly, eval_add, eval_sub, eval_mul, eval_C, eval_X]
      field_simp
      ring
  have hsends := tripleFormat_sends hnodes e
  rwa [← htriple, hlist g hdeg h0 h1 h2] at hsends

/-- The messages of `prove_product` are honest. -/
theorem pair_honest (hnodes : Nodes F 3) :
    Honest tripleFormat productEvals foldPair (fun st : List F × List F => [st.1, st.2]) 2 := by
  constructor
  case folds => exact fun c st _ => rfl
  case sends =>
    intro n st _ hlen
    have hhalf : st.1.length / 2 = 2 ^ n := by
      rw [hlen st.1 List.mem_cons_self, half_pow]
    have heval : ∀ c, (roundPoly n (entries [st.1, st.2])).eval c
        = ∑ x ∈ range (2 ^ n), fold n c (entry st.1) x * fold n c (entry st.2) x := by
      intro c
      rw [roundPoly_eval]
      refine sum_congr rfl fun x _ => ?_
      show fold n c (entry st.1) x * (fold n c (entry st.2) x * 1) = _
      rw [mul_one]
    have h0 : (roundPoly n (entries [st.1, st.2])).eval 0 = (productEvals st).e0 := by
      rw [heval, productEvals, hhalf]
      exact sum_congr rfl fun x _ => by rw [fold_zero, fold_zero]
    have h1 : (roundPoly n (entries [st.1, st.2])).eval 1 = (productEvals st).e1 := by
      rw [heval, productEvals, hhalf]
      exact sum_congr rfl fun x _ => by rw [fold_one, fold_one]
    have h2 : (roundPoly n (entries [st.1, st.2])).eval 2 = (productEvals st).e2 := by
      rw [heval, productEvals, hhalf]
      refine sum_congr rfl fun x _ => ?_
      rw [Multilinear.fold, Multilinear.fold]
      ring
    refine ⟨tripleFormat_sends_of_eval hnodes (roundPoly_natDegree_le n _) h0 h1 h2, decide_eq_true ?_⟩
    rw [cubeSum_succ, h0, h1]

/-- `prove_product_multi` and `verify_product_multi`: the challenges agree, and the claim
    left is the product of the tables at them. -/
theorem multi_complete {s : ℕ} {tables : List (List F)} (tr : Transcript F) (htables : tables ≠ [])
    (hnodes : Nodes F (tables.length + 1)) (hlen : ∀ t ∈ tables, t.length = 2 ^ s) :
    ∃ proof r tr', proveProductMulti tables tr = .ok ((proof, r, tables.map fun t => mle t r), tr') ∧ r.length = s
      ∧ verifyProductMulti proof (cubeSum s (entries tables)) tr
        = .ok ((r, (tables.map fun t => mle t r).prod), tr') := by
  have hpos : 0 < tables.length := List.length_pos_iff.mpr htables
  obtain ⟨out, hout⟩ : ∃ out, proveRounds listFormat multiEvals (fun ch => List.map (foldTable ch)) s tables tr = out :=
    ⟨_, rfl⟩
  have hcomplete := rounds_complete (multi_honest hpos hnodes) s tables tr rfl hlen
  rw [hout] at hcomplete
  obtain ⟨hr, hfinals, hverify⟩ := hcomplete
  have hhead : (tables.headD []).length = 2 ^ s := by
    cases tables with
    | nil => exact absurd rfl htables
    | cons t ts => exact hlen t List.mem_cons_self
  have hsame : ¬ ∃ t ∈ tables, t.length ≠ (tables.headD []).length := by
    rintro ⟨t, ht, hne⟩
    exact hne ((hlen t ht).trans hhead.symm)
  refine ⟨⟨out.1.1⟩, out.1.2.1, out.2, ?_, hr, hverify⟩
  have hfinals : (out.1.2.2.map fun t => entry t 0) = tables.map fun t => mle t out.1.2.1 := hfinals
  rw [proveProductMulti, guarded_of_not (Nat.ne_of_gt hpos)]
  show (revertIf _ _ >>= _) = _
  rw [guarded_of_not hsame, hhead, log2Exact_pow, ok_bind, hout, ← hfinals]

theorem product_complete {s : ℕ} {fa ga : List F} (tr : Transcript F) (hnodes : Nodes F 3) (hf : fa.length = 2 ^ s)
    (hg : ga.length = 2 ^ s) : ∃ proof r tr', proveProduct fa ga tr = .ok ((proof, r, mle fa r, mle ga r), tr')
      ∧ r.length = s
      ∧ verifyProduct proof (cubeSum s [entry fa, entry ga]) tr = .ok ((r, mle fa r * mle ga r), tr') := by
  have hlen : ∀ t ∈ [fa, ga], t.length = 2 ^ s := by
    intro t ht
    rcases List.mem_pair.mp ht with rfl | rfl
    · exact hf
    · exact hg
  obtain ⟨out, hout⟩ : ∃ out, proveRounds tripleFormat productEvals foldPair s (fa, ga) tr = out := ⟨_, rfl⟩
  have hcomplete := rounds_complete (pair_honest hnodes) s (fa, ga) tr rfl hlen
  rw [hout] at hcomplete
  obtain ⟨hr, hfinals, hverify⟩ := hcomplete
  obtain ⟨hfinal1, hfinals⟩ := List.cons.inj hfinals
  obtain ⟨hfinal2, -⟩ := List.cons.inj hfinals
  have hf' : entry out.1.2.2.1 0 = mle fa out.1.2.1 := hfinal1
  have hg' : entry out.1.2.2.2 0 = mle ga out.1.2.1 := hfinal2
  refine ⟨⟨out.1.1⟩, out.1.2.1, out.2, ?_, hr, ?_⟩
  · rw [proveProduct, guarded_of_not (not_not.mpr (hf.trans hg.symm)), hf, log2Exact_pow, ok_bind, hout, ← hf', ← hg']
  · refine hverify.trans ?_
    rw [List.map_cons, List.map_cons, List.map_nil, List.prod_cons, List.prod_cons, List.prod_nil, mul_one]

end Complete

end Sumcheck
