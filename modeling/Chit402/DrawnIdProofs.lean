import Chit402.SolidityProofs
import Mathlib.Data.Set.Function

/-! # Identifiers hashed from a counter

    A contract that names its records by a hash of a packed string, which
    ends in a counter it counts up at every name.  `Drawn` relates the
    strings hashed so far to the names in use; where the hash does not
    collide on them, the next name is a new one. -/

namespace DrawnId

open Solidity Function

variable {hash : List UInt8 → Word}

/-- The strings hashed so far count up, and every name in use is the hash of one. -/
structure Drawn (hash : List UInt8 → Word) (strings : List (List UInt8)) (count : Nat) (used : Word → Prop) :
    Prop where
  counted : ∀ p ∈ strings, ∃ head c, c < count ∧ p = head ++ bigEndian 32 c
  named : ∀ id, used id → ∃ p ∈ strings, hash p = id

theorem Drawn.start (used : Word → Prop) (h : ∀ id, ¬ used id) : Drawn hash [] 0 used :=
  ⟨fun _ hp => (List.not_mem_nil hp).elim, fun id hid => absurd hid (h id)⟩

variable {strings : List (List UInt8)} {count : Nat} {used : Word → Prop}

variable {head : List UInt8} {used' : Word → Prop}

section

variable (h : Drawn hash strings count used)
include h

theorem Drawn.mono (hle : ∀ id, used' id → used id) : Drawn hash strings count used' :=
  ⟨h.counted, fun id hid => h.named id (hle id hid)⟩

theorem Drawn.notMem (hcount : count < 2 ^ 256) : head ++ bigEndian 32 count ∉ strings := by
  intro hp
  obtain ⟨head', c, hc, heq⟩ := h.counted _ hp
  have hlow := (List.append_inj' heq (by rw [length_bigEndian, length_bigEndian])).2
  have hword : (256 : Nat) ^ 32 = 2 ^ 256 := by decide
  have := bigEndian_inj (by omega) (by omega) hlow
  omega

/-- **A NEW NAME**: without a collision the next name is not in use. -/
theorem Drawn.fresh (hcount : count < 2 ^ 256)
    (hinj : Set.InjOn hash {p | p ∈ strings ++ [head ++ bigEndian 32 count]}) :
    ¬ used (hash (head ++ bigEndian 32 count)) := by
  intro hid
  obtain ⟨p, hp, heq⟩ := h.named _ hid
  have hlast : head ++ bigEndian 32 count ∈ strings ++ [head ++ bigEndian 32 count] :=
    List.mem_append_right _ (List.mem_singleton.mpr rfl)
  have := hinj (List.mem_append_left _ hp) hlast heq
  exact h.notMem hcount (this ▸ hp)

/-- Drawing the next name. -/
theorem Drawn.draw (head : List UInt8) (hadd : ∀ id, used' id → used id ∨ id = hash (head ++ bigEndian 32 count)) :
    Drawn hash (strings ++ [head ++ bigEndian 32 count]) (count + 1) used' := by
  constructor
  · intro p hp
    rcases List.mem_append.mp hp with hp | hp
    · obtain ⟨head', c, hc, heq⟩ := h.counted p hp
      exact ⟨head', c, by omega, heq⟩
    · exact ⟨head, count, by omega, List.mem_singleton.mp hp⟩
  · intro id hid
    rcases hadd id hid with hid | rfl
    · obtain ⟨p, hp, heq⟩ := h.named id hid
      exact ⟨p, List.mem_append_left _ hp, heq⟩
    · exact ⟨_, List.mem_append_right _ (List.mem_singleton.mpr rfl), rfl⟩

end

/-! ## Records by id

    A record is in use where its stamp is not zero. -/

section Records

variable {R : Type} {stamp : R → Nat} {records : Word → R} {none : R} {id : Word} {r : R}

theorem Drawn.amend (h : Drawn hash strings count fun x => stamp (records x) ≠ 0) (hid : stamp (records id) ≠ 0) :
    Drawn hash strings count fun x => stamp (update records id r x) ≠ 0 := by
  refine h.mono fun x hx => ?_
  by_cases heq : x = id
  · exact heq ▸ hid
  · rwa [update_of_ne heq] at hx

theorem Drawn.add (h : Drawn hash strings count fun x => stamp (records x) ≠ 0) (head : List UInt8) :
    Drawn hash (strings ++ [head ++ bigEndian 32 count]) (count + 1)
      fun x => stamp (update records (hash (head ++ bigEndian 32 count)) r x) ≠ 0 := by
  refine h.draw head fun x hx => ?_
  by_cases heq : x = hash (head ++ bigEndian 32 count)
  · exact .inr heq
  · rw [update_of_ne heq] at hx
    exact .inl hx

theorem blank_update (h : ∀ x, stamp (records x) = 0 → records x = none) (hr : stamp r ≠ 0) (x : Word)
    (hx : stamp (update records id r x) = 0) : update records id r x = none := by
  by_cases heq : x = id
  · subst heq
    rw [update_self] at hx
    exact absurd hx hr
  · rw [update_of_ne heq] at hx ⊢
    exact h x hx

end Records

end DrawnId
