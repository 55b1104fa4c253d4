import Chit402.SumcheckProofs
import Mathlib.Algebra.Field.ZMod

/-! # The sumcheck is sound

    A prover who answers each challenge as it likes, and the verifier's loop
    at given challenges: what the loop accepts convinces in the sense of
    the sumcheck game, so a wrong claim is accepted at few challenges. -/

namespace SumcheckSound

open ExceptFlow Multilinear Mle FiatShamir Sumcheck ChallengeGame Finset Polynomial

/-! ## Provers -/

section Strategy

variable {F E : Type}

/-- What a prover sends in `k` rounds, when round `i` depends on the challenges before it. -/
def messages (strategy : List F → E) (k : ℕ) (rs : List F) : List E :=
  (List.range k).map fun i => strategy (rs.take i)

theorem messages_cons (strategy : List F → E) (k : ℕ) (c : F) (rs : List F) :
    messages strategy (k + 1) (c :: rs) = strategy [] :: messages (fun before => strategy (c :: before)) k rs := by
  rw [messages, List.range_succ_eq_map, List.map_cons, List.map_map]
  rfl

theorem length_messages (strategy : List F → E) (k : ℕ) (rs : List F) : (messages strategy k rs).length = k := by
  rw [messages, List.length_map, List.length_range]

end Strategy

/-! ## The verifier at given challenges -/

section Verifier

variable {F E : Type}

theorem verifyRounds_length {fmt : RoundFormat F E} {es : List E} {claim : F} {tr tr' : Transcript F} {ch : List F}
    {red : F} (h : verifyRounds fmt es claim tr = .ok ((ch, red), tr')) : ch.length = es.length := by
  induction es generalizing claim tr ch red tr' with
  | nil =>
    cases (Prod.mk.inj (Except.ok.inj h)).1
    rfl
  | cons e es ih =>
    rw [verifyRounds_cons, guarded_iff] at h
    obtain ⟨next, -, h⟩ := bind_iff.mp h.2
    obtain ⟨rest, hrest, h⟩ := bind_iff.mp h
    cases (Prod.mk.inj (Except.ok.inj h)).1
    exact congrArg (· + 1) (ih hrest)

variable [Field F]

/-- Absorbing a message draws no challenge. -/
def Quiet (fmt : RoundFormat F E) : Prop := ∀ e tr (rs : List F), Draws tr rs → Draws (fmt.absorb e tr) rs

/-- A verifier that gets through draws the challenges given, and is convinced of every
    product of functions that its last claim is the extension of. -/
theorem verifyRounds_convinces {fmt : RoundFormat F E} (hquiet : Quiet fmt) {strategy : List F → E}
    {g : List F → F[X]} (hsends : ∀ before, fmt.Sends (strategy before) (g before)) {claim : F} {tr tr' : Transcript F}
    {rs rest ch : List F} {red : F} (hdraws : Draws tr (rs ++ rest))
    (h : verifyRounds fmt (messages strategy rs.length rs) claim tr = .ok ((ch, red), tr')) : ch = rs ∧ Draws tr' rest
      ∧ ∀ fs : List (ℕ → F), red = (fs.map (ext rs)).prod → Convinces g claim fs rs := by
  induction rs generalizing claim tr ch strategy g with
  | nil =>
    obtain ⟨hpair, rfl⟩ := Prod.mk.inj (Except.ok.inj h)
    cases hpair
    exact ⟨rfl, hdraws, fun fs hred => hred⟩
  | cons c rs ih =>
    rw [List.length_cons, messages_cons, verifyRounds_cons, guarded_iff] at h
    obtain ⟨hadds, h⟩ := h
    obtain ⟨hc, hnext⟩ := (hquiet (strategy []) tr (c :: (rs ++ rest)) hdraws).challenge (label "r")
    rw [hc, (hsends []).next, ok_bind] at h
    obtain ⟨⟨⟨ch', red'⟩, tr''⟩, hrest, h⟩ := bind_iff.mp h
    obtain ⟨hpair, rfl⟩ := Prod.mk.inj (Except.ok.inj h)
    cases hpair
    obtain ⟨hch, hdone, hconvinces⟩ := ih (fun before => hsends (c :: before)) hnext hrest
    refine ⟨congrArg (c :: ·) hch, hdone, fun fs hred => ⟨?_, hconvinces _ ?_⟩⟩
    · exact (hsends []).sums claim (Bool.not_eq_false _ ▸ hadds)
    · rw [List.map_map]
      exact hred

theorem foldl_absorb_draws (lbl : List UInt8) (e rs : List F) (tr : Transcript F) (h : Draws tr rs) :
    Draws (e.foldl (fun tr x => tr.absorbField lbl x) tr) rs := by
  induction e generalizing tr with
  | nil => exact h
  | cons x e ih => exact ih _ (h.absorbField lbl x)

theorem listFormat_quiet [DecidableEq F] : Quiet (listFormat (F := F)) :=
    fun e tr rs h => foldl_absorb_draws (label "m") e rs tr h

theorem tripleFormat_quiet [DecidableEq F] : Quiet (tripleFormat (F := F)) := fun e _ _ h =>
  ((h.absorbField (label "s0") e.e0).absorbField (label "s1") e.e1).absorbField (label "s2") e.e2

/-- A sumcheck ends with the product of the tables at the challenges. -/
def Accepts (tables : List (List F)) (result : Except Abort ((List F × F) × Transcript F)) : Prop :=
  ∃ r tr', result = .ok ((r, (tables.map fun t => mle t r).prod), tr')

variable [Fintype F]

/-- At few challenges a wrong claim gets through the rounds of any kind of message. -/
theorem rounds_sound {fmt : RoundFormat F E} (hquiet : Quiet fmt) {strategy : List F → E} {g : List F → F[X]}
    (hsends : ∀ before, fmt.Sends (strategy before) (g before)) {d s : ℕ} (hdeg : ∀ before, (g before).natDegree ≤ d)
    {tables : List (List F)} (htables : tables.length ≤ d) {claim : F} (hclaim : claim ≠ cubeSum s (entries tables)) :
    fraction (fun v : Fin s → F => Accepts tables
      (verifyRounds fmt (messages strategy s (List.ofFn v)) claim (replay (List.ofFn v))))
    ≤ (s * d : ℕ) / Fintype.card F := by
  have hfs : (entries tables).length ≤ d := by
    rw [entries, List.length_map]
    exact htables
  refine le_trans (fraction_mono fun v hv => ?_) (sumcheck_sound hdeg hfs hclaim)
  obtain ⟨r, tr', hverify⟩ := hv
  have hdraws : Draws (replay (List.ofFn v)) (List.ofFn v ++ []) := by
    rw [List.append_nil]
    exact replay_draws _
  have hlen : messages strategy s (List.ofFn v) = messages strategy (List.ofFn v).length (List.ofFn v) := by
    rw [List.length_ofFn]
  rw [hlen] at hverify
  obtain ⟨rfl, -, hconvinces⟩ := verifyRounds_convinces hquiet hsends hdraws hverify
  refine hconvinces _ ?_
  rw [entries, List.map_map]
  rfl

end Verifier

/-! ## Over a prime field -/

section Prime

variable {p : ℕ} [Fact p.Prime]

theorem nodes_zmod {n : ℕ} (h : n ≤ p) : Nodes (ZMod p) n := by
  intro i hi j hj hij
  have hi : i < p := Nat.lt_of_lt_of_le (mem_range.mp hi) h
  have hj : j < p := Nat.lt_of_lt_of_le (mem_range.mp hj) h
  have hmod := (ZMod.natCast_eq_natCast_iff' i j p).mp hij
  rwa [Nat.mod_eq_of_lt hi, Nat.mod_eq_of_lt hj] at hmod

/-- At few challenges `verify_product_multi` accepts a wrong claim. -/
theorem multi_sound {s most : ℕ} (hmost : most ≤ p) {strategy : List (ZMod p) → List (ZMod p)}
    (hstrategy : ∀ before, (strategy before).length ≤ most) {tables : List (List (ZMod p))} {claim : ZMod p}
    (hclaim : claim ≠ cubeSum s (entries tables)) : fraction (fun v : Fin s → ZMod p => Accepts tables
      (verifyProductMulti ⟨messages strategy s (List.ofFn v)⟩ claim (replay (List.ofFn v))))
    ≤ (s * max tables.length (most - 1) : ℕ) / p := by
  have hnodes : ∀ before, Nodes (ZMod p) (strategy before).length := fun before =>
    nodes_zmod (Nat.le_trans (hstrategy before) hmost)
  have hdeg : ∀ before, (interpolated (strategy before)).natDegree ≤ max tables.length (most - 1) := fun before =>
    le_trans (interpolated_natDegree_le (hnodes before))
      (le_trans (Nat.sub_le_sub_right (hstrategy before) 1) (le_max_right _ _))
  have hsound := rounds_sound listFormat_quiet (fun before => listFormat_sends (hnodes before)) hdeg (le_max_left _ _)
    hclaim
  rw [ZMod.card] at hsound
  exact hsound

theorem product_sound (hp : 2 < p) {s : ℕ} {strategy : List (ZMod p) → Evals3 (ZMod p)} {fa ga : List (ZMod p)}
    {claim : ZMod p} (hclaim : claim ≠ cubeSum s (entries [fa, ga])) :
    fraction (fun v : Fin s → ZMod p => Accepts [fa, ga]
      (verifyProduct ⟨messages strategy s (List.ofFn v)⟩ claim (replay (List.ofFn v)))) ≤ (s * 2 : ℕ) / p := by
  have hsound := rounds_sound tripleFormat_quiet (fun before => tripleFormat_sends (nodes_zmod hp) (strategy before))
    (fun before => triplePoly_natDegree_le _) (show [fa, ga].length ≤ 2 from le_refl 2) hclaim
  rw [ZMod.card] at hsound
  exact hsound

/-- **COMPLETE AND SOUND**: honest proofs are accepted and end with the tables at the
    challenges drawn; a wrong claim gets through at few challenges, whatever the prover
    sends in each round. -/
theorem sumcheck_complete_and_sound (p : ℕ) [Fact p.Prime] :
    (∀ (s : ℕ) (tables : List (List (ZMod p))) (tr : Transcript (ZMod p)), tables ≠ [] → tables.length < p →
      (∀ t ∈ tables, t.length = 2 ^ s) →
      ∃ proof r tr', proveProductMulti tables tr = .ok ((proof, r, tables.map fun t => mle t r), tr')
        ∧ (∀ t ∈ tables, mleEval t r = .ok (mle t r)) ∧ verifyProductMulti proof (cubeSum s (entries tables)) tr
          = .ok ((r, (tables.map fun t => mle t r).prod), tr'))
    ∧ (∀ (s : ℕ) (fa ga : List (ZMod p)) (tr : Transcript (ZMod p)), 2 < p → fa.length = 2 ^ s → ga.length = 2 ^ s →
      ∃ proof r tr', proveProduct fa ga tr = .ok ((proof, r, mle fa r, mle ga r), tr')
        ∧ mleEval fa r = .ok (mle fa r) ∧ mleEval ga r = .ok (mle ga r)
        ∧ verifyProduct proof (cubeSum s (entries [fa, ga])) tr = .ok ((r, mle fa r * mle ga r), tr'))
    ∧ (∀ (s most : ℕ) (tables : List (List (ZMod p))) (claim : ZMod p) (strategy : List (ZMod p) → List (ZMod p)),
      most ≤ p → (∀ before, (strategy before).length ≤ most) → claim ≠ cubeSum s (entries tables) →
      fraction (fun v : Fin s → ZMod p => Accepts tables
        (verifyProductMulti ⟨messages strategy s (List.ofFn v)⟩ claim (replay (List.ofFn v))))
      ≤ (s * max tables.length (most - 1) : ℕ) / p)
    ∧ ∀ (s : ℕ) (fa ga : List (ZMod p)) (claim : ZMod p) (strategy : List (ZMod p) → Evals3 (ZMod p)), 2 < p →
      claim ≠ cubeSum s (entries [fa, ga]) → fraction (fun v : Fin s → ZMod p => Accepts [fa, ga]
        (verifyProduct ⟨messages strategy s (List.ofFn v)⟩ claim (replay (List.ofFn v)))) ≤ (s * 2 : ℕ) / p := by
  refine ⟨?_, ?_, ?_, ?_⟩
  · intro s tables tr htables hcount hlen
    obtain ⟨proof, r, tr', hprove, hr, hverify⟩ := multi_complete tr htables (nodes_zmod hcount) hlen
    exact ⟨proof, r, tr', hprove, fun t ht => mleEval_of_length (by rw [hr]; exact hlen t ht), hverify⟩
  · intro s fa ga tr hp hf hg
    obtain ⟨proof, r, tr', hprove, hr, hverify⟩ := product_complete tr (nodes_zmod hp) hf hg
    exact ⟨proof, r, tr', hprove, mleEval_of_length (by rw [hr]; exact hf), mleEval_of_length (by rw [hr]; exact hg),
      hverify⟩
  · intro s most tables claim strategy hmost hstrategy hclaim
    exact multi_sound hmost hstrategy hclaim
  · intro s fa ga claim strategy hp hclaim
    exact product_sound hp hclaim

/-- Over the field of three elements: the tables 1, 2 and 1, 1 add up to 0, and a prover
    who claims 1 and always sends 1 and 0 is accepted for at most two challenges of three. -/
theorem sumcheck_complete_and_sound_three :
    (∃ proof r tr', proveProduct ([1, 2] : List (ZMod 3)) [1, 1] (replay [2])
      = .ok ((proof, r, mle [1, 2] r, mle [1, 1] r), tr')
      ∧ mleEval [1, 2] r = .ok (mle [1, 2] r) ∧ mleEval [1, 1] r = .ok (mle [1, 1] r)
      ∧ verifyProduct proof (cubeSum 1 (entries [[1, 2], [1, 1]])) (replay [2])
        = .ok ((r, mle [1, 2] r * mle [1, 1] r), tr')) ∧ fraction (fun v : Fin 1 → ZMod 3 => Accepts [[1, 2], [1, 1]]
      (verifyProductMulti ⟨messages (fun _ => [1, 0]) 1 (List.ofFn v)⟩ 1 (replay (List.ofFn v))))
      ≤ (1 * max 2 (2 - 1) : ℕ) / (3 : ℕ) := by
  obtain ⟨-, hproduct, hmulti, -⟩ := sumcheck_complete_and_sound 3
  constructor
  · exact hproduct 1 [1, 2] [1, 1] (replay [2]) (by decide) rfl rfl
  · refine hmulti 1 2 [[1, 2], [1, 1]] 1 (fun _ => [1, 0]) (by decide) (fun _ => le_refl 2) ?_
    decide

end Prime

end SumcheckSound
