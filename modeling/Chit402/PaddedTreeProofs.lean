import Mathlib.Data.Nat.Log
import Mathlib.Data.Set.Function

/-! # Trees that pad an odd level with its last node

    A level is folded by hashing its nodes in pairs, and the last node of an
    odd level is paired with itself.  The root binds the list only up to that
    padding. -/

namespace PaddedTree

variable {H K : Type}

/-- Neighbours in pairs, an odd last one with itself. -/
def pairs : List H → List (H × H)
  | [] => []
  | [a] => [(a, a)]
  | a :: b :: rest => (a, b) :: pairs rest

def unpair (ps : List (H × H)) : List H := ps.flatMap fun p => [p.1, p.2]

theorem length_pairs (xs : List H) : (pairs xs).length = (xs.length + 1) / 2 := by
  induction xs using pairs.induct with
  | case1 => simp [pairs]
  | case2 a => simp [pairs]
  | case3 a b rest ih =>
    rw [pairs, List.length_cons, ih, List.length_cons, List.length_cons]
    omega

theorem pairs_map (f : H → K) (xs : List H) : pairs (xs.map f) = (pairs xs).map (Prod.map f f) := by
  induction xs using pairs.induct with
  | case1 => rfl
  | case2 a => rfl
  | case3 a b rest ih =>
    show (f a, f b) :: pairs (rest.map f) = _
    rw [ih]
    rfl

theorem unpair_map (f : H → K) (ps : List (H × H)) : unpair (ps.map (Prod.map f f)) = (unpair ps).map f := by
  induction ps with
  | nil => rfl
  | cons p ps ih => exact congrArg (fun tail => f p.1 :: f p.2 :: tail) ih

theorem unpair_injective : Function.Injective (unpair : List (H × H) → List H) := by
  intro ps
  induction ps with
  | nil =>
    intro qs h
    cases qs with
    | nil => rfl
    | cons q qs => cases h
  | cons p ps ih =>
    intro qs h
    cases qs with
    | nil => cases h
    | cons q qs =>
      obtain ⟨hfst, h⟩ := List.cons.inj h
      obtain ⟨hsnd, h⟩ := List.cons.inj h
      rw [Prod.ext hfst hsnd, ih h]

theorem prefix_unpair_pairs (xs : List H) : xs <+: unpair (pairs xs) := by
  induction xs using pairs.induct with
  | case1 => exact List.prefix_rfl
  | case2 a => exact ⟨[a], rfl⟩
  | case3 a b rest ih => exact (List.prefix_cons_inj a).mpr ((List.prefix_cons_inj b).mpr ih)

variable {x : H} {f : H → K} {ps : List (H × H)} {xs ys : List H} {t : ℕ}

theorem unpair_mono {qs : List (H × H)} (h : ps <+: qs) : unpair ps <+: unpair qs := by
  obtain ⟨rest, rfl⟩ := h
  exact ⟨unpair rest, List.flatMap_append.symm⟩

theorem mem_unpair (h : x ∈ unpair ps) : ∃ p ∈ ps, x = p.1 ∨ x = p.2 := by
  obtain ⟨p, hp, hx⟩ := List.mem_flatMap.mp h
  simp only [List.mem_cons, List.not_mem_nil, or_false] at hx
  exact ⟨p, hp, hx⟩

theorem mem_of_mem_pairs {p : H × H} (h : p ∈ pairs xs) : p.1 ∈ xs ∧ p.2 ∈ xs := by
  induction xs using pairs.induct with
  | case1 => cases h
  | case2 a =>
    rw [List.mem_singleton.mp h]
    exact ⟨List.mem_cons_self, List.mem_cons_self⟩
  | case3 a b rest ih =>
    obtain rfl | h := List.mem_cons.mp h
    · exact ⟨List.mem_cons_self, List.mem_cons_of_mem _ List.mem_cons_self⟩
    · obtain ⟨hfst, hsnd⟩ := ih h
      exact ⟨List.mem_cons_of_mem _ (List.mem_cons_of_mem _ hfst), List.mem_cons_of_mem _ (List.mem_cons_of_mem _ hsnd)⟩

/-! ## Completed leaves -/

/-- The leaves a tree of this height has, its padding included. -/
def fill : {H : Type} → ℕ → List H → List H
  | _, 0, xs => xs
  | _, t + 1, xs => unpair (fill t (pairs xs))

theorem fill_map (f : H → K) (t : ℕ) (xs : List H) : fill t (xs.map f) = (fill t xs).map f := by
  induction t generalizing H K with
  | zero => rfl
  | succ t ih =>
    show unpair (fill t (pairs (xs.map f))) = (unpair (fill t (pairs xs))).map f
    rw [pairs_map, ih, unpair_map]

theorem mem_of_mem_fill (h : x ∈ fill t xs) : x ∈ xs := by
  induction t generalizing H with
  | zero => exact h
  | succ t ih =>
    obtain ⟨p, hp, hx⟩ := mem_unpair h
    obtain ⟨hfst, hsnd⟩ := mem_of_mem_pairs (ih hp)
    obtain rfl | rfl := hx
    · exact hfst
    · exact hsnd

theorem prefix_fill (t : ℕ) (xs : List H) : xs <+: fill t xs := by
  induction t generalizing H with
  | zero => exact List.prefix_rfl
  | succ t ih => exact (prefix_unpair_pairs xs).trans (unpair_mono (ih (pairs xs)))

theorem fill_inj (hlen : xs.length = ys.length) (h : fill t xs = fill t ys) : xs = ys := by
  have hxs := List.prefix_iff_eq_take.mp (prefix_fill t xs)
  have hys := List.prefix_iff_eq_take.mp (prefix_fill t ys)
  rw [hxs, hys, h, hlen]

theorem eq_of_map_eq (hinj : ∀ x ∈ xs, ∀ y ∈ ys, f x = f y → x = y) (h : xs.map f = ys.map f) : xs = ys := by
  induction xs generalizing ys with
  | nil => exact (List.map_eq_nil_iff.mp h.symm).symm
  | cons x xs ih =>
    obtain ⟨y, ys, rfl, hx, hxs⟩ := List.map_eq_cons_iff.mp h.symm
    rw [hinj x List.mem_cons_self y List.mem_cons_self hx.symm,
      ih (fun a ha b hb => hinj a (List.mem_cons_of_mem _ ha) b (List.mem_cons_of_mem _ hb)) hxs.symm]

theorem fill_map_eq_iff (hinj : Set.InjOn f {x | x ∈ xs ∨ x ∈ ys}) :
    fill t (xs.map f) = fill t (ys.map f) ↔ fill t xs = fill t ys := by
  rw [fill_map, fill_map]
  constructor
  · intro h
    exact eq_of_map_eq (fun x hx y hy => hinj (.inl (mem_of_mem_fill hx)) (.inr (mem_of_mem_fill hy))) h
  · intro h
    rw [h]

/-! ## Folding -/

section Folding

variable (node : H → H → H)

/-- The next level. -/
def up (xs : List H) : List H := (pairs xs).map fun p => node p.1 p.2

/-- The level after `t` rounds. -/
def level : ℕ → List H → List H
  | 0, xs => xs
  | t + 1, xs => level t (up node xs)

/-- The pairs that are hashed in `t` rounds. -/
def hashed : ℕ → List H → List (H × H)
  | 0, _ => []
  | t + 1, xs => pairs xs ++ hashed t (up node xs)

/-- Rounds until one node is left. -/
def height (xs : List H) : ℕ := Nat.clog 2 xs.length

theorem length_up (xs : List H) : (up node xs).length = (xs.length + 1) / 2 := by
  rw [up, List.length_map, length_pairs]

theorem height_short (h : xs.length ≤ 1) : height xs = 0 := Nat.clog_of_right_le_one h 2

theorem height_up (h : 1 < xs.length) : height xs = height (up node xs) + 1 := by
  rw [height, height, length_up]
  exact Nat.clog_of_two_le (by omega) h

theorem level_add (s t : ℕ) (xs : List H) : level node (s + t) xs = level node s (level node t xs) := by
  induction t generalizing xs with
  | zero => rfl
  | succ t ih => exact ih (up node xs)

theorem hashed_add (s t : ℕ) (xs : List H) :
    hashed node (s + t) xs = hashed node t xs ++ hashed node s (level node t xs) := by
  induction t generalizing xs with
  | zero => rfl
  | succ t ih =>
    show pairs xs ++ hashed node (s + t) (up node xs) = pairs xs ++ hashed node t (up node xs) ++ _
    rw [ih (up node xs), List.append_assoc]
    rfl

variable {node}

/-- **FOLDING**: two lists fold into one level exactly when they fill up to one list. -/
theorem level_eq_iff
    (hinj : Set.InjOn (fun p : H × H => node p.1 p.2) {p | p ∈ hashed node t xs ∨ p ∈ hashed node t ys}) :
    level node t xs = level node t ys ↔ fill t xs = fill t ys := by
  induction t generalizing xs ys with
  | zero => exact Iff.rfl
  | succ t ih =>
    have hlater : ∀ {zs : List H}, ∀ p ∈ hashed node t (up node zs), p ∈ hashed node (t + 1) zs := fun p hp =>
      List.mem_append_right _ hp
    have hnow : ∀ {zs : List H}, ∀ p ∈ pairs zs, p ∈ hashed node (t + 1) zs := fun p hp => List.mem_append_left _ hp
    calc level node t (up node xs) = level node t (up node ys)
        ↔ fill t (up node xs) = fill t (up node ys) := ih (hinj.mono fun p hp => hp.imp (hlater p) (hlater p))
      _ ↔ fill t (pairs xs) = fill t (pairs ys) := fill_map_eq_iff (hinj.mono fun p hp => hp.imp (hnow p) (hnow p))
      _ ↔ unpair (fill t (pairs xs)) = unpair (fill t (pairs ys)) := unpair_injective.eq_iff.symm

end Folding

end PaddedTree
