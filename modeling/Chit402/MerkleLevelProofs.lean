import Mathlib.Data.List.Nodup
import Mathlib.Data.Nat.Log
import Mathlib.Algebra.Group.Nat.Defs

/-! # Merkle trees by split and by level

    The RFC 9162 tree hash is a recursion on the largest power of two below
    the size.  The loops that compute and check it climb level by level
    instead: pair neighbours, promote an odd tail, halve the index.  This
    file relates the two readings once, for any node function:

    Everything later (walks, consistency) is an induction over levels. -/

namespace MerkleLevel

variable {H : Type}

/-! ## The split point -/

/-- The largest power of two below `n` (1 when there is none). -/
def split (n : Nat) : Nat := 2 ^ Nat.log2 (n - 1)

theorem split_pos (n : Nat) : 0 < split n := Nat.two_pow_pos _

variable {a b x : H} {xs : List H} {i j n start stop : Nat}

theorem split_lt (h : 2 ≤ n) : split n < n := by
  have := Nat.log2_self_le (n := n - 1) (by omega)
  unfold split
  omega

theorem le_two_mul_split (n : Nat) : n ≤ 2 * split n := by
  have := Nat.lt_log2_self (n := n - 1)
  unfold split
  rw [Nat.pow_succ] at this
  omega

theorem split_eq_of_bounds {t : Nat} (hlt : 2 ^ t < n) (hle : n ≤ 2 ^ (t + 1)) : split n = 2 ^ t := by
  have h0 : n - 1 ≠ 0 := by
    have := Nat.two_pow_pos t
    omega
  have hlog : Nat.log2 (n - 1) = t := by
    rw [Nat.log2_eq_iff h0]
    omega
  rw [split, hlog]

theorem split_half (h : 3 ≤ n) : split n = 2 * split ((n + 1) / 2) := by
  have h1 := split_lt (n := (n + 1) / 2) (by omega)
  have h2 := le_two_mul_split ((n + 1) / 2)
  obtain ⟨t, ht⟩ : ∃ t, split ((n + 1) / 2) = 2 ^ t := ⟨_, rfl⟩
  rw [ht] at h1 h2 ⊢
  have hs : 2 ^ (t + 1) = 2 * 2 ^ t := by rw [Nat.pow_succ, Nat.mul_comm]
  have hs' : 2 ^ (t + 1 + 1) = 2 * (2 * 2 ^ t) := by rw [Nat.pow_succ, hs, Nat.mul_comm]
  rw [← hs]
  exact split_eq_of_bounds (by omega) (by omega)

/-- The search for it as a loop: double while the double stays below `n`. -/
def doubleBelow (n k : Nat) : Nat :=
  if 0 < k ∧ k * 2 < n then doubleBelow n (k * 2) else k
termination_by n - k

theorem doubleBelow_eq_split (t : Nat) (h : 2 ^ t < n ∨ t = 0) : doubleBelow n (2 ^ t) = split n := by
  induction hd : n - 2 ^ t using Nat.strongRecOn generalizing t with
  | ind d ih =>
    have hp := Nat.two_pow_pos t
    rw [doubleBelow, ← Nat.pow_succ]
    by_cases hlt : 2 ^ (t + 1) < n
    · rw [if_pos ⟨hp, hlt⟩]
      rw [Nat.pow_succ] at hlt
      exact ih (n - 2 ^ (t + 1)) (by rw [Nat.pow_succ]; omega) (t + 1)
        (Or.inl (by rw [Nat.pow_succ]; exact hlt)) rfl
    · rw [if_neg (fun hc => hlt hc.2)]
      by_cases hn : 2 ^ t < n
      · exact (split_eq_of_bounds hn (by omega)).symm
      · obtain rfl : t = 0 := by omega
        rw [split, show n - 1 = 0 by omega]
        rfl

theorem split_two : split 2 = 1 := rfl

/-! ## One level -/

/-- One level up: neighbours are joined, an odd last element is promoted. -/
def pairUp (node : H → H → H) : List H → List H
  | [] => []
  | [x] => [x]
  | x :: y :: rest => node x y :: pairUp node rest

variable (node : H → H → H)

@[simp] theorem length_pairUp (xs : List H) : (pairUp node xs).length = (xs.length + 1) / 2 := by
  fun_induction pairUp node xs with
  | case1 => simp
  | case2 x => simp
  | case3 x y rest ih =>
    simp only [List.length_cons, ih]
    omega

/-- A pair below becomes a node above. -/
theorem pairUp_getElem_pair (xs : List H) (j : Nat) (ha : xs[2 * j]? = some a) (hb : xs[2 * j + 1]? = some b) :
    (pairUp node xs)[j]? = some (node a b) := by
  fun_induction pairUp node xs generalizing j with
  | case1 => cases ha
  | case2 x => cases hb
  | case3 x y rest ih =>
    cases j with
    | zero =>
      cases ha
      cases hb
      rfl
    | succ j =>
      exact ih j ha hb

/-- An element without a right neighbour is promoted unchanged. -/
theorem pairUp_getElem_last (xs : List H) (j : Nat) (ha : xs[2 * j]? = some a) (hb : xs.length = 2 * j + 1) :
    (pairUp node xs)[j]? = some a := by
  fun_induction pairUp node xs generalizing j with
  | case1 => cases ha
  | case2 x =>
    obtain rfl : j = 0 := by
      simp only [List.length_singleton] at hb
      omega
    exact ha
  | case3 x y rest ih =>
    cases j with
    | zero => simp at hb
    | succ j =>
      refine ih j ha ?_
      simp only [List.length_cons] at hb
      omega

theorem pairUp_take (xs : List H) (j : Nat) : pairUp node (xs.take (2 * j)) = (pairUp node xs).take j := by
  induction j generalizing xs with
  | zero => simp [pairUp]
  | succ j ih =>
    match xs with
    | [] => simp [pairUp]
    | [x] => simp [pairUp, show 2 * (j + 1) = 2 * j + 1 + 1 by omega]
    | x :: y :: rest =>
      rw [show 2 * (j + 1) = 2 * j + 1 + 1 by omega]
      simp only [List.take_succ_cons, pairUp]
      rw [ih]

theorem pairUp_drop (xs : List H) (j : Nat) : pairUp node (xs.drop (2 * j)) = (pairUp node xs).drop j := by
  induction j generalizing xs with
  | zero => simp
  | succ j ih =>
    match xs with
    | [] => simp [pairUp]
    | [x] => simp [pairUp, show 2 * (j + 1) = 2 * j + 1 + 1 by omega]
    | x :: y :: rest =>
      rw [show 2 * (j + 1) = 2 * j + 1 + 1 by omega]
      simp only [List.drop_succ_cons, pairUp]
      rw [ih]

/-! ## The tree hash -/

/-- The RFC 9162 tree hash of a list of leaf hashes, by the split recursion. -/
def mth (empty : H) (xs : List H) : H :=
  if xs.length ≤ 1 then xs.headD empty
  else
    node (mth empty (xs.take (split xs.length)))
      (mth empty (xs.drop (split xs.length)))
termination_by xs.length
decreasing_by
  · have := split_lt (n := xs.length) (by omega)
    simp only [List.length_take]
    omega
  · have := split_pos xs.length
    simp only [List.length_drop]
    omega

/-- The same hash by levels, as the loop that pairs up until one is left. -/
def levelRoot (empty : H) (xs : List H) : H :=
  if xs.length ≤ 1 then xs.headD empty else levelRoot empty (pairUp node xs)
termination_by xs.length
decreasing_by
  rw [length_pairUp]
  omega

variable {node} {empty : H}

theorem mth_short (h : xs.length ≤ 1) : mth node empty xs = xs.headD empty := by
  rw [mth, if_pos h]

@[simp] theorem mth_nil : mth node empty [] = empty := mth_short (by simp)

@[simp] theorem mth_singleton (x : H) : mth node empty [x] = x := mth_short (by simp)

theorem mth_split (xs : List H) (h : 2 ≤ xs.length) :
    mth node empty xs = node (mth node empty (xs.take (split xs.length)))
      (mth node empty (xs.drop (split xs.length))) := by
  rw [mth, if_neg (by omega)]

/-- **ONE LEVEL**: pairing up does not change the tree hash. -/
theorem mth_pairUp (xs : List H) : mth node empty (pairUp node xs) = mth node empty xs := by
  induction hn : xs.length using Nat.strongRecOn generalizing xs with
  | ind n ih =>
    match xs, hn with
    | [], _ => rfl
    | [x], _ => rfl
    | [x, y], _ =>
      rw [mth_split [x, y] (by simp)]
      simp [pairUp, split_two]
    | x :: y :: z :: rest, hn =>
      have h3 : 3 ≤ n := by
        simp only [List.length_cons] at hn
        omega
      generalize x :: y :: z :: rest = xs at hn ⊢
      subst hn
      have hk := split_half h3
      have hlt := split_lt (n := xs.length) (by omega)
      have hp := split_pos ((xs.length + 1) / 2)
      rw [mth_split xs (by omega), mth_split (pairUp node xs) (by rw [length_pairUp]; omega),
        length_pairUp, ← pairUp_take, ← pairUp_drop, ← hk]
      rw [ih _ (by simp only [List.length_take]; omega) (xs.take (split xs.length)) rfl,
        ih _ (by simp only [List.length_drop]; omega) (xs.drop (split xs.length)) rfl]

theorem levelRoot_eq_mth (xs : List H) : levelRoot node empty xs = mth node empty xs := by
  fun_induction levelRoot node empty xs with
  | case1 xs h => rw [mth_short h]
  | case2 xs h ih => rw [ih, mth_pairUp]

/-! ## Iterated levels -/

/-- `t` levels up. -/
def levels (node : H → H → H) : Nat → List H → List H
  | 0, xs => xs
  | t + 1, xs => levels node t (pairUp node xs)

theorem levels_succ (t : Nat) (xs : List H) : levels node (t + 1) xs = levels node t (pairUp node xs) := rfl

theorem length_levels_le (t : Nat) (h : xs.length ≤ 1) : (levels node t xs).length ≤ 1 := by
  induction t generalizing xs with
  | zero => exact h
  | succ t ih =>
    rw [levels_succ]
    exact ih (by rw [length_pairUp]; omega)

/-! ## Slices -/

/-- The elements at positions `start` up to `stop`. -/
def slice (xs : List H) (start stop : Nat) : List H := (xs.drop start).take (stop - start)

theorem length_slice (h : stop ≤ xs.length) : (slice xs start stop).length = stop - start := by
  simp only [slice, List.length_take, List.length_drop]
  omega

theorem slice_whole (xs : List H) : slice xs 0 xs.length = xs := by
  simp [slice]

theorem slice_prefix (xs : List H) (n : Nat) : slice xs 0 n = xs.take n := by
  simp [slice]

theorem slice_take (xs : List H) {k : Nat} (h : start + k ≤ stop) :
    (slice xs start stop).take k = slice xs start (start + k) := by
  rw [slice, slice, List.take_take]
  congr 1
  omega

theorem slice_drop (xs : List H) (start stop k : Nat) : (slice xs start stop).drop k = slice xs (start + k) stop := by
  rw [slice, slice, List.drop_take, List.drop_drop]
  congr 1
  omega

theorem slice_singleton (hx : xs[start]? = some x) (h : stop = start + 1) : slice xs start stop = [x] := by
  subst h
  rw [slice, show start + 1 - start = 1 by omega, List.take_one, List.head?_drop, hx]
  rfl

/-! ## The audit path -/

variable (node empty)

/-- RFC 9162 PATH: the sibling hashes of leaf `i`, leaf side first. -/
def path (i : Nat) (xs : List H) : List H :=
  if xs.length ≤ 1 then []
  else if i < split xs.length then
    path i (xs.take (split xs.length)) ++ [mth node empty (xs.drop (split xs.length))]
  else
    path (i - split xs.length) (xs.drop (split xs.length))
      ++ [mth node empty (xs.take (split xs.length))]
termination_by xs.length
decreasing_by
  · have := split_lt (n := xs.length) (by omega)
    simp only [List.length_take]
    omega
  · have := split_pos xs.length
    simp only [List.length_drop]
    omega

/-- The sibling of position `i` on its own level, if it has one. -/
def sibling (i : Nat) (xs : List H) : Option H :=
  if i % 2 = 1 then xs[i - 1]? else xs[i + 1]?

variable {node empty}

theorem path_short (i : Nat) (h : xs.length ≤ 1) : path node empty i xs = [] := by
  rw [path, if_pos h]

theorem path_left (xs : List H) (h : 2 ≤ xs.length) (hi : i < split xs.length) :
    path node empty i xs = path node empty i (xs.take (split xs.length))
      ++ [mth node empty (xs.drop (split xs.length))] := by
  rw [path, if_neg (by omega), if_pos hi]

theorem path_right (xs : List H) (h : 2 ≤ xs.length) (hi : split xs.length ≤ i) :
    path node empty i xs = path node empty (i - split xs.length) (xs.drop (split xs.length))
      ++ [mth node empty (xs.take (split xs.length))] := by
  rw [path, if_neg (by omega), if_neg (by omega)]

theorem sibling_take (xs : List H) (hi : i < 2 * j) : sibling i (xs.take (2 * j)) = sibling i xs := by
  unfold sibling
  by_cases h : i % 2 = 1
  · rw [if_pos h, if_pos h, List.getElem?_take_of_lt (by omega)]
  · rw [if_neg h, if_neg h, List.getElem?_take_of_lt (by omega)]

theorem sibling_drop (xs : List H) (hi : 2 * j ≤ i) : sibling (i - 2 * j) (xs.drop (2 * j)) = sibling i xs := by
  unfold sibling
  by_cases h : i % 2 = 1
  · rw [if_pos h, if_pos (by omega), List.getElem?_drop]
    congr 1
    omega
  · rw [if_neg h, if_neg (by omega), List.getElem?_drop]
    congr 1
    omega

/-- **ONE LEVEL OF THE PATH**: its first entry is the sibling on this level, the
    rest is the path of the halved index one level up. -/
theorem path_pairUp (i : Nat) (xs : List H) (hi : i < xs.length) : path node empty i xs
      = (sibling i xs).toList ++ path node empty (i / 2) (pairUp node xs) := by
  induction hn : xs.length using Nat.strongRecOn generalizing xs i with
  | ind n ih =>
    match xs, hn with
    | [], _ => exact absurd hi (by simp)
    | [x], _ =>
      obtain rfl : i = 0 := by
        simp only [List.length_singleton] at hi
        omega
      rw [path_short 0 (by simp), path_short (0 / 2) (by simp)]
      rfl
    | [x, y], _ =>
      have hl : (pairUp node [x, y]).length ≤ 1 := by simp
      rw [path_short (i / 2) hl]
      match i, hi with
      | 0, _ =>
        rw [path_left [x, y] (by simp) (split_pos 2), path_short 0 (by simp [split_two])]
        simp [split_two, sibling]
      | 1, _ =>
        rw [path_right [x, y] (by simp) (Nat.le_refl 1), path_short _ (by simp [split_two])]
        simp [split_two, sibling]
    | x :: y :: z :: rest, hn =>
      have h3 : 3 ≤ n := by
        simp only [List.length_cons] at hn
        omega
      generalize hxs : x :: y :: z :: rest = xs at hn hi ⊢
      clear hxs
      subst hn
      have hk := split_half h3
      have hlt := split_lt (n := xs.length) (by omega)
      have hp := split_pos ((xs.length + 1) / 2)
      have hlen : (pairUp node xs).length = (xs.length + 1) / 2 := length_pairUp node xs
      by_cases hik : i < split xs.length
      · -- the left subtree has an even number of leaves, so its pairs are ours
        rw [path_left xs (by omega) hik, path_left (pairUp node xs) (by omega) (by rw [hlen]; omega), hlen]
        rw [ih _ (by simp only [List.length_take]; omega) i (xs.take (split xs.length))
          (by simp only [List.length_take]; omega) rfl]
        rw [hk, sibling_take xs (by omega), pairUp_take, ← pairUp_drop, mth_pairUp, List.append_assoc]
      · rw [path_right xs (by omega) (by omega), path_right (pairUp node xs) (by omega) (by rw [hlen]; omega), hlen]
        rw [ih _ (by simp only [List.length_drop]; omega) (i - split xs.length)
          (xs.drop (split xs.length)) (by simp only [List.length_drop]; omega) rfl]
        rw [hk, sibling_drop xs (by omega), pairUp_drop, ← pairUp_take, mth_pairUp, List.append_assoc]
        congr 3
        omega

/-! ## The three positions on a level -/

variable (node) in
theorem level_promoted (hx : xs[i]? = some x) (heven : i % 2 = 0) (hlast : xs.length = i + 1) :
    sibling i xs = none ∧ (pairUp node xs)[i / 2]? = some x := by
  constructor
  · rw [sibling, if_neg (by omega), List.getElem?_eq_none (by omega)]
  · refine pairUp_getElem_last node xs (i / 2) ?_ (by omega)
    rw [show 2 * (i / 2) = i by omega, hx]

variable (node) in
theorem level_odd (hx : xs[i]? = some x) (hodd : i % 2 = 1) :
    ∃ p, xs[2 * (i / 2)]? = some p ∧ xs[2 * (i / 2) + 1]? = some x ∧ sibling i xs = some p
      ∧ (pairUp node xs)[i / 2]? = some (node p x) := by
  have hi : i < xs.length := (List.getElem?_eq_some_iff.mp hx).1
  have ha : xs[2 * (i / 2)]? = some xs[i - 1] := by
    rw [show 2 * (i / 2) = i - 1 by omega, List.getElem?_eq_getElem]
  have hb : xs[2 * (i / 2) + 1]? = some x := by
    rw [show 2 * (i / 2) + 1 = i by omega, hx]
  refine ⟨xs[i - 1], ha, hb, ?_, pairUp_getElem_pair node xs (i / 2) ha hb⟩
  rw [sibling, if_pos hodd, List.getElem?_eq_getElem]

variable (node) in
theorem level_even (hx : xs[i]? = some x) (heven : i % 2 = 0) (hnot : i + 1 < xs.length) :
    ∃ p, xs[2 * (i / 2)]? = some x ∧ xs[2 * (i / 2) + 1]? = some p ∧ sibling i xs = some p
      ∧ (pairUp node xs)[i / 2]? = some (node x p) := by
  have ha : xs[2 * (i / 2)]? = some x := by
    rw [show 2 * (i / 2) = i by omega, hx]
  have hb : xs[2 * (i / 2) + 1]? = some xs[i + 1] := by
    rw [show 2 * (i / 2) + 1 = i + 1 by omega, List.getElem?_eq_getElem]
  refine ⟨xs[i + 1], ha, hb, ?_, pairUp_getElem_pair node xs (i / 2) ha hb⟩
  rw [sibling, if_neg (by omega), List.getElem?_eq_getElem]

theorem exists_sibling (hi : i < xs.length) (hnot : ¬ (i % 2 = 0 ∧ i = xs.length - 1)) :
    ∃ p, sibling i xs = some p := by
  unfold sibling
  split_ifs with hodd
  · exact ⟨_, List.getElem?_eq_getElem (by omega)⟩
  · exact ⟨_, List.getElem?_eq_getElem (by omega)⟩

variable (node empty) in
/-- A path is no longer than the number of bits of the last index. -/
theorem length_path_le (i t : Nat) (xs : List H) (hi : i < xs.length)
    (ht : xs.length ≤ 2 ^ t) : (path node empty i xs).length ≤ t := by
  induction t generalizing i xs with
  | zero =>
    rw [path_short i (by simpa using ht)]
    exact Nat.zero_le _
  | succ t ih =>
    rw [path_pairUp i xs hi, List.length_append]
    have h1 : (sibling i xs).toList.length ≤ 1 := by
      cases sibling i xs <;> simp
    have h2 := ih (i / 2) (pairUp node xs)
      (by rw [length_pairUp]; omega)
      (by rw [length_pairUp]; rw [Nat.pow_succ] at ht; omega)
    omega

/-! ## Collision freedom on one tree -/

/-- No pair other than its own hashes to an interior node of this tree.  An
    injective node function gives it for every tree; on fixed-width digests,
    where no pairing is injective, it can still hold of a given tree. -/
def CollisionFree (node : H → H → H) (xs : List H) : Prop :=
  ∀ t j a b, (levels node t xs)[2 * j]? = some a → (levels node t xs)[2 * j + 1]? = some b →
    ∀ c d, node c d = node a b → c = a ∧ d = b

theorem CollisionFree.pairUp (h : CollisionFree node xs) : CollisionFree node (pairUp node xs) :=
  fun t => h (t + 1)

/-- The same of the tree and of every prefix of it; the right edge of a prefix is no
    part of the whole tree. -/
def PrefixCollisionFree (node : H → H → H) (xs : List H) : Prop :=
  ∀ n, CollisionFree node (xs.take n)

theorem PrefixCollisionFree.take (h : PrefixCollisionFree node xs) (m : Nat) :
    PrefixCollisionFree node (xs.take m) := by
  intro n
  rw [List.take_take]
  exact h _

theorem PrefixCollisionFree.whole (h : PrefixCollisionFree node xs) : CollisionFree node xs := by
  have := h xs.length
  rwa [List.take_length] at this

theorem PrefixCollisionFree.of_short (h : xs.length ≤ 1) : PrefixCollisionFree node xs := by
  intro n t j a b _ hb
  have hlen : (MerkleLevel.levels node t (xs.take n)).length ≤ 1 :=
    length_levels_le t (by rw [List.length_take]; omega)
  have := (List.getElem?_eq_some_iff.mp hb).1
  omega

theorem CollisionFree.of_short (h : xs.length ≤ 1) : CollisionFree node xs := (PrefixCollisionFree.of_short h).whole

/-- A tree is collision free when its lowest level and the tree over it are. -/
theorem CollisionFree.of_level (h : ∀ j a b, xs[2 * j]? = some a → xs[2 * j + 1]? = some b →
      ∀ c d, node c d = node a b → c = a ∧ d = b) (hup : CollisionFree node (MerkleLevel.pairUp node xs)) :
    CollisionFree node xs := by
  intro t
  cases t with
  | zero => exact h
  | succ t => exact hup t

/-- On two leaves only the root matters. -/
theorem CollisionFree.of_pair (h : ∀ c d, node c d = node a b → c = a ∧ d = b) : CollisionFree node [a, b] := by
  refine .of_level ?_ (.of_short Nat.le.refl)
  intro j a' b' ha hb
  obtain rfl : j = 0 := by
    have := (List.getElem?_eq_some_iff.mp hb).1
    simp only [List.length_cons, List.length_nil] at this
    omega
  cases ha
  cases hb
  exact h

/-- A function given by a table takes the value of a row at no other point, when the values
    differ from each other and from the default. -/
theorem lookup_getD_inj {κ : Type} [BEq κ] [LawfulBEq κ] {table : List (κ × H)} {default : H} {k k' : κ}
    (hnodup : (default :: table.map Prod.snd).Nodup) (hk : k ∈ table.map Prod.fst)
    (h : (table.lookup k').getD default = (table.lookup k).getD default) : k' = k := by
  obtain ⟨hdefault, hvalues⟩ := List.nodup_cons.mp hnodup
  have hmem {q : κ} {v : H} (hq : table.lookup q = some v) : (q, v) ∈ table := by
    obtain ⟨l₁, l₂, rfl, -⟩ := List.lookup_eq_some_iff.mp hq
    exact List.mem_append_right _ List.mem_cons_self
  cases hv : table.lookup k with
  | none =>
    obtain ⟨row, hrow, rfl⟩ := List.mem_map.mp hk
    have := List.lookup_eq_none_iff.mp hv row hrow
    simp at this
  | some v =>
    cases hv' : table.lookup k' with
    | none =>
      rw [hv, hv', Option.getD_none, Option.getD_some] at h
      exact absurd (h ▸ List.mem_map_of_mem (hmem hv)) hdefault
    | some v' =>
      rw [hv, hv', Option.getD_some, Option.getD_some] at h
      have := List.inj_on_of_nodup_map hvalues (hmem hv') (hmem hv) h
      exact congrArg Prod.fst this

end MerkleLevel
