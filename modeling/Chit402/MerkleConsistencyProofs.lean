import Chit402.MerkleWalkProofs

/-! # The consistency proof is exact

    A consistency verifier strips the trailing one-bits of `m - 1`, takes a
    seed node, and then rebuilds the old and the new root in one walk.  On the
    prover's side SUBPROOF recurses on the split.  Both are invariant under
    one level while `m` is even (`subproof_even`, `consistencyWalk_even`); at
    the first odd `m` the proof is a seed followed by the audit path of
    position `m - 1`, so exactness reduces to inclusion. -/

namespace MerkleConsistency

open MerkleLevel MerkleWalk

variable {H : Type}

/-- RFC 9162 SUBPROOF.  `known` is true while the old tree is a complete left
    part whose hash the verifier already has. -/
def subproof (node : H → H → H) (empty : H) (m : Nat) (xs : List H) (known : Bool) : List H :=
  if m = xs.length then if known then [] else [mth node empty xs]
  else if xs.length ≤ 1 then []
  else if m ≤ split xs.length then
    subproof node empty m (xs.take (split xs.length)) known
      ++ [mth node empty (xs.drop (split xs.length))]
  else
    subproof node empty (m - split xs.length) (xs.drop (split xs.length)) false
      ++ [mth node empty (xs.take (split xs.length))]
termination_by xs.length
decreasing_by
  · have := split_lt (n := xs.length) (by omega)
    simp only [List.length_take]
    omega
  · have := split_pos xs.length
    simp only [List.length_drop]
    omega

variable {node : H → H → H} {empty : H}

theorem subproof_whole (xs : List H) (known : Bool) :
    subproof node empty xs.length xs known = if known then [] else [mth node empty xs] := by
  rw [subproof, if_pos rfl]

variable {x : H} {xs : List H} {i m : Nat}

theorem subproof_left (xs : List H) (known : Bool) (hne : m ≠ xs.length) (h2 : 2 ≤ xs.length)
    (hm : m ≤ split xs.length) : subproof node empty m xs known
      = subproof node empty m (xs.take (split xs.length)) known ++ [mth node empty (xs.drop (split xs.length))] := by
  rw [subproof, if_neg hne, if_neg (by omega), if_pos hm]

theorem subproof_right (xs : List H) (known : Bool) (hne : m ≠ xs.length) (h2 : 2 ≤ xs.length)
    (hm : split xs.length < m) : subproof node empty m xs known
      = subproof node empty (m - split xs.length) (xs.drop (split xs.length)) false
        ++ [mth node empty (xs.take (split xs.length))] := by
  rw [subproof, if_neg hne, if_neg (by omega), if_neg (by omega)]

/-- **ONE LEVEL**: an even old size can be halved together with the tree. -/
theorem subproof_even (m : Nat) (xs : List H) (known : Bool) (heven : m % 2 = 0) (h0 : 0 < m) (hle : m ≤ xs.length) :
    subproof node empty m xs known = subproof node empty (m / 2) (pairUp node xs) known := by
  induction hn : xs.length using Nat.strongRecOn generalizing m xs known with
  | ind n ih =>
    subst hn
    have hlen : (pairUp node xs).length = (xs.length + 1) / 2 := length_pairUp node xs
    by_cases hm : m = xs.length
    · have hm' : m / 2 = (pairUp node xs).length := by omega
      rw [hm', subproof_whole, hm, subproof_whole, mth_pairUp]
    · have h3 : 3 ≤ xs.length := by omega
      have hk := split_half h3
      have hlt := split_lt (n := xs.length) (by omega)
      have hp := split_pos ((xs.length + 1) / 2)
      by_cases hmk : m ≤ split xs.length
      · rw [subproof_left xs known hm (by omega) hmk,
          subproof_left (pairUp node xs) known (by omega) (by omega) (by rw [hlen]; omega), hlen]
        rw [ih _ (by simp only [List.length_take]; omega) m (xs.take (split xs.length)) known
          heven h0 (by simp only [List.length_take]; omega) rfl]
        rw [hk, pairUp_take, ← pairUp_drop, mth_pairUp]
      · rw [subproof_right xs known hm (by omega) (by omega),
          subproof_right (pairUp node xs) known (by omega) (by omega) (by rw [hlen]; omega), hlen]
        rw [ih _ (by simp only [List.length_drop]; omega) (m - split xs.length)
          (xs.drop (split xs.length)) false (by omega) (by omega)
          (by simp only [List.length_drop]; omega) rfl]
        rw [hk, pairUp_drop, ← pairUp_take, mth_pairUp,
          show (m - 2 * split ((xs.length + 1) / 2)) / 2 = m / 2 - split ((xs.length + 1) / 2) by omega]

/-- **ODD OLD SIZE**: the proof is the last old leaf (unless the verifier has it)
    followed by the audit path of its position. -/
theorem subproof_odd (m : Nat) (xs : List H) (known : Bool) (hodd : m % 2 = 1) (hx : xs[m - 1]? = some x)
    (hm : m < xs.length ∨ xs.length = 1) : subproof node empty m xs known
      = (if m = 1 ∧ known = true then [] else [x]) ++ path node empty (m - 1) xs := by
  induction hn : xs.length using Nat.strongRecOn generalizing m xs known with
  | ind n ih =>
    subst hn
    have hi : m - 1 < xs.length := (List.getElem?_eq_some_iff.mp hx).1
    by_cases h1 : xs.length = 1
    · obtain rfl : m = xs.length := by omega
      obtain ⟨y, rfl⟩ := List.length_eq_one_iff.mp h1
      cases hx
      rw [subproof_whole, path_short _ (by simp)]
      cases known <;> simp
    · have hlt := split_lt (n := xs.length) (by omega)
      have hp := split_pos xs.length
      by_cases hmk : m ≤ split xs.length
      · rw [subproof_left xs known (by omega) (by omega) hmk, path_left xs (by omega) (by omega)]
        have htake : (xs.take (split xs.length)).length = split xs.length := by
          simp only [List.length_take]
          omega
        have hside : m < (xs.take (split xs.length)).length
            ∨ (xs.take (split xs.length)).length = 1 := by
          by_cases h2 : xs.length = 2
          · right
            rw [htake, h2]
            rfl
          · have := split_half (n := xs.length) (by omega)
            omega
        rw [ih _ (by omega) m _ known hodd
          (by rw [List.getElem?_take_of_lt (by omega), hx]) hside rfl, List.append_assoc]
      · have h3 : 3 ≤ xs.length := by
          by_contra h
          have h2 : xs.length = 2 := by omega
          rw [h2, split_two] at hmk
          omega
        have hk := split_half h3
        rw [subproof_right xs known (by omega) (by omega) (by omega), path_right xs (by omega) (by omega)]
        rw [ih _ (by simp only [List.length_drop]; omega) (m - split xs.length) _ false
          (by omega) (by rw [List.getElem?_drop, ← hx]; congr 1; omega)
          (by simp only [List.length_drop]; omega) rfl]
        rw [if_neg (by simp), if_neg (by omega), List.append_assoc, Nat.sub_right_comm]

/-! ## The verifier's side -/

/-- Whether halving while even ends at one. -/
def isPow2 (m : Nat) : Bool :=
  if m = 0 then false else if m % 2 = 0 then isPow2 (m / 2) else decide (m = 1)

theorem isPow2_even (h0 : 0 < m) (heven : m % 2 = 0) : isPow2 m = isPow2 (m / 2) := by
  rw [isPow2, if_neg (by omega), if_pos heven]

theorem isPow2_odd (hodd : m % 2 = 1) : isPow2 m = decide (m = 1) := by
  rw [isPow2, if_neg (by omega), if_neg (by omega)]

/-- Strip the trailing one-bits of the old index. -/
def dropOdd (fn sn : Nat) : Nat × Nat :=
  if fn % 2 = 1 then dropOdd (fn / 2) (sn / 2) else (fn, sn)

/-- A left sibling is part of both trees. -/
def bothLeft (node : H → H → H) (c : H) (r : H × H) : H × H := (node c r.1, node c r.2)

/-- A right sibling is part of the new tree only. -/
def bothRight (node : H → H → H) (c : H) (r : H × H) : H × H := (r.1, node r.2 c)

/-- The nodes the verifier walks: the old root is the seed of a power of two. -/
def seedNodes (m : Nat) (old : H) (proof : List H) : List H :=
  if isPow2 m then old :: proof else proof

/-- The two roots a consistency proof leads to, if it leads to any. -/
def consistencyWalk (node : H → H → H) (m n : Nat) (old : H) (proof : List H) :
    Option (H × H) :=
  match seedNodes m old proof with
  | [] => none
  | seed :: rest =>
    climb (bothLeft node) (bothRight node) (dropOdd (m - 1) (n - 1)).1
      (dropOdd (m - 1) (n - 1)).2 (seed, seed) rest

theorem dropOdd_le {fn sn : Nat} (h : fn ≤ sn) : (dropOdd fn sn).1 ≤ (dropOdd fn sn).2 := by
  fun_induction dropOdd fn sn with
  | case1 fn sn hodd ih => exact ih (Nat.div_le_div_right h)
  | case2 fn sn hodd => exact h

theorem dropOdd_snd_le (fn sn : Nat) : (dropOdd fn sn).2 ≤ sn := by
  fun_induction dropOdd fn sn with
  | case1 fn sn hodd ih => exact Nat.le_trans ih (Nat.div_le_self ..)
  | case2 fn sn hodd => exact Nat.le_refl _

/-- **ONE LEVEL** of the verifier, while the old size is even. -/
theorem consistencyWalk_even {n : Nat} (h0 : 0 < m) (heven : m % 2 = 0) (old : H) (proof : List H) :
    consistencyWalk node m n old proof = consistencyWalk node (m / 2) ((n + 1) / 2) old proof := by
  have hdrop : dropOdd (m - 1) (n - 1) = dropOdd (m / 2 - 1) ((n + 1) / 2 - 1) := by
    rw [dropOdd, if_pos (by omega)]
    congr 1
    · omega
    · omega
  have hseed : seedNodes m old proof = seedNodes (m / 2) old proof := by
    rw [seedNodes, seedNodes, isPow2_even h0 heven]
  unfold consistencyWalk
  rw [hdrop, hseed]

variable (node) in
/-- The new root of the two-root walk is the inclusion walk. -/
theorem climb_both_snd (fn sn : Nat) (r : H × H) (proof : List H) :
    (climb (bothLeft node) (bothRight node) fn sn r proof).map Prod.snd
      = climb (includeLeft node) (includeRight node) fn sn r.2 proof := by
  induction sn using Nat.strongRecOn generalizing fn r proof with
  | ind sn ih =>
    by_cases h0 : sn = 0
    · subst h0
      rw [climb_root, climb_root]
      cases proof <;> rfl
    · by_cases hp : fn % 2 = 0 ∧ fn = sn
      · obtain ⟨heven, rfl⟩ := hp
        rw [climb_promoted r proof h0 heven, climb_promoted r.2 proof h0 heven, ih (fn / 2) (by omega)]
      · cases proof with
        | nil =>
          rw [climb_nil, climb_nil, if_neg h0, if_neg h0]
          rfl
        | cons c cs =>
          rw [climb_cons r c cs h0 hp, climb_cons r.2 c cs h0 hp, ih (sn / 2) (by omega)]
          by_cases hodd : fn % 2 = 1
          · rw [if_pos hodd, if_pos hodd]
            rfl
          · rw [if_neg hodd, if_neg hodd]
            rfl

/-- Replacing the last old node `f` commutes with a level: the left part pairs up,
    and `f` absorbs its left sibling when it has one. -/
theorem pairUp_take_append (xs : List H) (i : Nat) (f : H) (hi : i ≤ xs.length) : pairUp node (xs.take i ++ [f])
      = (pairUp node xs).take (i / 2) ++ [if i % 2 = 1 then node (xs.getD (i - 1) f) f else f] := by
  induction xs using pairUp.induct generalizing i with
  | case1 =>
    obtain rfl : i = 0 := by simpa using hi
    simp [pairUp]
  | case2 x =>
    have : i = 0 ∨ i = 1 := by
      simp only [List.length_singleton] at hi
      omega
    rcases this with rfl | rfl <;> simp [pairUp]
  | case3 x y rest ih =>
    obtain rfl | rfl | ⟨i, rfl⟩ : i = 0 ∨ i = 1 ∨ ∃ j, i = j + 2 := by
      by_cases hsmall : i < 2
      · omega
      · exact .inr (.inr ⟨i - 2, by omega⟩)
    · simp [pairUp]
    · simp [pairUp]
    · have := ih i (by simp only [List.length_cons] at hi; omega)
      rw [show (i + 2) / 2 = i / 2 + 1 by omega]
      simp only [List.take_succ_cons, List.cons_append, pairUp, this]
      by_cases hodd : i % 2 = 1
      · obtain ⟨j, rfl⟩ : ∃ j, i = j + 1 := ⟨i - 1, by omega⟩
        simp [hodd, show (j + 1 + 2) % 2 = 1 by omega]
      · simp [hodd]

/-- **COMPLETENESS OF THE TWO-ROOT WALK**: the audit path of position `i` leads to
    the tree hash and to the hash of the prefix whose last node is `f`. -/
theorem climb_two_roots (hx : xs[i]? = some x) (f : H) :
    climb (bothLeft node) (bothRight node) i (xs.length - 1) (f, x) (path node empty i xs)
      = some (mth node empty (xs.take i ++ [f]), mth node empty xs) := by
  induction hn : xs.length using Nat.strongRecOn generalizing xs i x f with
  | ind n ih =>
    subst hn
    have hi : i < xs.length := (List.getElem?_eq_some_iff.mp hx).1
    by_cases h1 : xs.length = 1
    · obtain ⟨y, rfl⟩ := List.length_eq_one_iff.mp h1
      obtain rfl : i = 0 := by
        simp only [List.length_singleton] at hi
        omega
      cases hx
      rw [path_short 0 (by simp), List.length_singleton, climb_root]
      simp
    · have hlen : (pairUp node xs).length = (xs.length + 1) / 2 := length_pairUp node xs
      have hold : mth node empty (pairUp node (xs.take i ++ [f])) = mth node empty (xs.take i ++ [f]) :=
        mth_pairUp _
      rw [pairUp_take_append xs i f (by omega)] at hold
      have hup : ∀ {y : H} (g : H), (pairUp node xs)[i / 2]? = some y →
          climb (bothLeft node) (bothRight node) (i / 2) ((xs.length - 1) / 2) (g, y)
              (path node empty (i / 2) (pairUp node xs))
            = some (mth node empty ((pairUp node xs).take (i / 2) ++ [g]),
                mth node empty xs) := by
        intro y g hy
        have := ih (pairUp node xs).length (by omega) hy g rfl
        rw [show (pairUp node xs).length - 1 = (xs.length - 1) / 2 by omega, mth_pairUp] at this
        exact this
      rw [path_pairUp i xs hi, ← hold]
      by_cases hp : i % 2 = 0 ∧ i = xs.length - 1
      · obtain ⟨hsib, htop⟩ := level_promoted node hx hp.1 (by omega)
        have := hup f htop
        rw [if_neg (by omega), hsib, ← hp.2, climb_promoted _ _ (by omega) hp.1]
        rw [← hp.2] at this
        exact this
      · by_cases hodd : i % 2 = 1
        · obtain ⟨q, ha, hb, hsib, htop⟩ := level_odd node hx hodd
          have hq : xs.getD (i - 1) f = q := by
            rw [show 2 * (i / 2) = i - 1 by omega] at ha
            rw [List.getD_eq_getElem?_getD, ha]
            rfl
          rw [hsib, if_pos hodd, hq]
          refine Eq.trans (climb_cons _ q _ (by omega) hp) ?_
          rw [if_pos hodd]
          exact hup (node q f) htop
        · obtain ⟨q, ha, hb, hsib, htop⟩ := level_even node hx (by omega) (by omega)
          rw [hsib, if_neg hodd]
          refine Eq.trans (climb_cons _ q _ (by omega) hp) ?_
          rw [if_neg hodd]
          exact hup f htop

theorem climb_path (hx : xs[i]? = some x) :
    climb (includeLeft node) (includeRight node) i (xs.length - 1) x (path node empty i xs)
      = some (mth node empty xs) := by
  rw [← climb_both_snd node i (xs.length - 1) (x, x), climb_two_roots hx]
  rfl

variable (empty) in
/-- On a collision-free tree the two-root walk reaches the tree hash in one way. -/
theorem climb_two_roots_iff (hcf : CollisionFree node xs) (hx : xs[i]? = some x) (s a : H) (proof : List H) :
    climb (bothLeft node) (bothRight node) i (xs.length - 1) (s, s) proof = some (a, mth node empty xs)
      ↔ x = s ∧ proof = path node empty i xs ∧ a = mth node empty (xs.take (i + 1)) := by
  have htake : xs.take i ++ [x] = xs.take (i + 1) := by
    rw [List.take_add_one, hx]
    rfl
  constructor
  · intro h
    have hsnd := climb_both_snd node i (xs.length - 1) (s, s) proof
    rw [h] at hsnd
    obtain ⟨rfl, rfl⟩ := (climb_inclusion_iff empty hcf hx s proof).mp hsnd.symm
    rw [climb_two_roots hx, htake] at h
    exact ⟨rfl, rfl, (Prod.mk.inj (Option.some.inj h)).1.symm⟩
  · rintro ⟨rfl, rfl, rfl⟩
    rw [climb_two_roots hx, htake]

variable (empty) in
/-- **CONSISTENCY IS EXACT**: against the hash of a collision-free tree the walk
    returns the claimed old root for exactly the prefix hash and exactly SUBPROOF. -/
theorem consistencyWalk_iff (hcf : CollisionFree node xs) (h0 : 0 < m) (hm : m < xs.length) (old : H) (proof : List H) :
    consistencyWalk node m xs.length old proof = some (old, mth node empty xs)
      ↔ old = mth node empty (xs.take m) ∧ proof = subproof node empty m xs true := by
  induction m using Nat.strongRecOn generalizing xs with
  | ind m ih =>
    by_cases heven : m % 2 = 0
    · have htake : mth node empty (xs.take m)
          = mth node empty ((pairUp node xs).take (m / 2)) := by
        rw [← pairUp_take, mth_pairUp, show 2 * (m / 2) = m by omega]
      have := ih (m / 2) (by omega) hcf.pairUp (by omega) (by rw [length_pairUp]; omega)
      rw [length_pairUp, mth_pairUp] at this
      rw [consistencyWalk_even h0 heven, this, htake, subproof_even m xs true heven h0 (by omega)]
    · have hodd : m % 2 = 1 := by omega
      have hx : xs[m - 1]? = some xs[m - 1] := List.getElem?_eq_getElem (by omega)
      have hdrop : dropOdd (m - 1) (xs.length - 1) = (m - 1, xs.length - 1) := by
        rw [dropOdd, if_neg (by omega)]
      have hwalk := fun s rest => climb_two_roots_iff empty hcf hx s old rest
      rw [show m - 1 + 1 = m by omega] at hwalk
      rw [subproof_odd m xs true hodd hx (Or.inl hm), consistencyWalk, seedNodes, isPow2_odd hodd, hdrop]
      by_cases h1 : m = 1
      · subst h1
        simp only [decide_true, if_true]
        rw [hwalk]
        have hroot : mth node empty (xs.take 1) = xs[0] := by
          rw [List.take_one, List.head?_eq_getElem?, hx]
          exact mth_singleton _
        constructor
        · rintro ⟨-, hp, ho⟩
          exact ⟨ho, hp⟩
        · rintro ⟨ho, hp⟩
          exact ⟨(ho.trans hroot).symm, hp, ho⟩
      · simp only [h1, decide_false, Bool.false_eq_true, if_false, false_and, List.singleton_append]
        cases proof with
        | nil => simp
        | cons seed rest =>
          simp only [hwalk, List.cons.injEq]
          constructor
          · rintro ⟨hs, hp, ho⟩
            exact ⟨ho, hs.symm, hp⟩
          · rintro ⟨ho, hs, hp⟩
            exact ⟨hs.symm, hp, ho⟩

theorem subproof_ne_nil (h0 : 0 < m) (hm : m < xs.length) (known : Bool) : subproof node empty m xs known ≠ [] := by
  by_cases hmk : m ≤ split xs.length
  · rw [subproof_left xs known (by omega) (by omega) hmk]
    simp
  · rw [subproof_right xs known (by omega) (by omega) (by omega)]
    simp

end MerkleConsistency
