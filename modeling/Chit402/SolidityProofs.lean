import Chit402.ExceptFlowProofs
import Mathlib.Data.List.Induction

/-! # Solidity 0.8 arithmetic

    Addresses, words and their ABI encoding, the compiler's own reverts, and
    the checked `uint64` operations the contracts use. -/

namespace Solidity

open ExceptFlow

abbrev Address := BitVec 160

/-- A `bytes32`, or the bits of a `uint256`. -/
abbrev Word := BitVec 256

/-- The compiler's own reverts. -/
inductive Panic where
  | arithmetic
  | arrayBounds
deriving DecidableEq

/-- A `uint64` subtraction reverts on underflow. -/
def checkedSub (a b : UInt64) : Except Panic UInt64 :=
  if a < b then .error .arithmetic else .ok (a - b)

/-- A `uint64` addition reverts on overflow. -/
def checkedAdd (a b : UInt64) : Except Panic UInt64 :=
  if 2 ^ 64 ≤ a.toNat + b.toNat then .error .arithmetic else .ok (a + b)

theorem checkedAdd_ok_iff (a b c : UInt64) : checkedAdd a b = .ok c ↔ c.toNat = a.toNat + b.toNat := by
  rw [checkedAdd, ite_error_ok_iff, Except.ok.injEq, ← UInt64.toNat_inj, UInt64.toNat_add]
  have := c.toNat_lt
  constructor
  · rintro ⟨hlt, hc⟩
    rw [← hc, Nat.mod_eq_of_lt (by omega)]
  · intro hc
    refine ⟨by omega, ?_⟩
    rw [Nat.mod_eq_of_lt (by omega), hc]

/-- The `width` low bytes of `n`, most significant first. -/
def bigEndian : Nat → Nat → List UInt8
  | 0, _ => []
  | width + 1, n => bigEndian width (n / 256) ++ [UInt8.ofNat (n % 256)]

@[simp] theorem length_bigEndian (width n : Nat) : (bigEndian width n).length = width := by
  induction width generalizing n with
  | zero => rfl
  | succ width ih => rw [bigEndian, List.length_append, ih, List.length_singleton]

variable {k n width : Nat}

theorem bigEndian_inj (hn : n < 256 ^ width) (hk : k < 256 ^ width) (h : bigEndian width n = bigEndian width k) :
    n = k := by
  induction width generalizing n k with
  | zero =>
    rw [Nat.pow_zero] at hn hk
    omega
  | succ width ih =>
    rw [Nat.pow_succ] at hn hk
    rw [bigEndian, bigEndian] at h
    obtain ⟨hhigh, hlow⟩ := List.append_inj h (by simp)
    have hdiv := ih (by omega) (by omega) hhigh
    have hmod := congrArg UInt8.toNat (List.cons.inj hlow).1
    rw [UInt8.toNat_ofNat', UInt8.toNat_ofNat'] at hmod
    omega

def wordBytes (w : Word) : List UInt8 := bigEndian 32 w.toNat

/-- The number a byte string spells, most significant first. -/
def ofBigEndian (bytes : List UInt8) : Nat := bytes.foldl (fun n b => 256 * n + b.toNat) 0

theorem ofBigEndian_concat (bytes : List UInt8) (b : UInt8) :
    ofBigEndian (bytes ++ [b]) = 256 * ofBigEndian bytes + b.toNat := by
  rw [ofBigEndian, List.foldl_append]
  rfl

theorem ofBigEndian_lt (bytes : List UInt8) : ofBigEndian bytes < 256 ^ bytes.length := by
  induction bytes using List.reverseRecOn with
  | nil => exact Nat.one_pos
  | append_singleton bytes b ih =>
    have hb := b.toNat_lt
    rw [ofBigEndian_concat, List.length_append, List.length_singleton, Nat.pow_succ]
    omega

theorem bigEndian_ofBigEndian (bytes : List UInt8) : bigEndian bytes.length (ofBigEndian bytes) = bytes := by
  induction bytes using List.reverseRecOn with
  | nil => rfl
  | append_singleton bytes b ih =>
    have hb := b.toNat_lt
    rw [List.length_append, List.length_singleton, bigEndian, ofBigEndian_concat,
      show (256 * ofBigEndian bytes + b.toNat) / 256 = ofBigEndian bytes by omega, ih,
      show (256 * ofBigEndian bytes + b.toNat) % 256 = b.toNat by omega, UInt8.ofNat_toNat]

theorem ofBigEndian_bigEndian (h : n < 256 ^ width) : ofBigEndian (bigEndian width n) = n := by
  have hlt := ofBigEndian_lt (bigEndian width n)
  have hback := bigEndian_ofBigEndian (bigEndian width n)
  rw [length_bigEndian] at hlt hback
  exact bigEndian_inj hlt h hback

/-- 32 bytes as a `bytes32`. -/
def bytesWord (bytes : List UInt8) : Word := BitVec.ofNat 256 (ofBigEndian bytes)

theorem wordBytes_bytesWord {bytes : List UInt8} (h : bytes.length = 32) : wordBytes (bytesWord bytes) = bytes := by
  have hlt := ofBigEndian_lt bytes
  rw [h, show (256 : Nat) ^ 32 = 2 ^ 256 from rfl] at hlt
  rw [wordBytes, bytesWord, BitVec.toNat_ofNat, Nat.mod_eq_of_lt hlt, ← h, bigEndian_ofBigEndian]

/-- `abi.encode` of static arguments: each padded to a word. -/
def abiEncode (words : List Word) : List UInt8 := words.flatMap wordBytes

theorem length_wordBytes (w : Word) : (wordBytes w).length = 32 := length_bigEndian 32 _

theorem wordBytes_injective : Function.Injective wordBytes := by
  intro a b h
  exact BitVec.eq_of_toNat_eq (bigEndian_inj a.isLt b.isLt h)

theorem abiEncode_cons (w : Word) (words : List Word) : abiEncode (w :: words) = wordBytes w ++ abiEncode words := rfl

theorem abiEncode_cons_ne (w : Word) (words : List Word) : abiEncode (w :: words) ≠ [] := by
  intro h
  have hlen := congrArg List.length h
  rw [abiEncode_cons, List.length_append, length_wordBytes, List.length_nil] at hlen
  omega

/-- Static arguments are read back from their encoding. -/
theorem abiEncode_injective : Function.Injective abiEncode := by
  intro xs ys h
  induction xs generalizing ys with
  | nil =>
    cases ys with
    | nil => rfl
    | cons y ys => exact absurd h.symm (abiEncode_cons_ne y ys)
  | cons x xs ih =>
    cases ys with
    | nil => exact absurd h (abiEncode_cons_ne x xs)
    | cons y ys =>
      rw [abiEncode_cons, abiEncode_cons] at h
      obtain ⟨hw, hrest⟩ := List.append_inj h (by rw [length_wordBytes, length_wordBytes])
      rw [wordBytes_injective hw, ih hrest]

/-- An unsigned integer as a word. -/
def uintWord (n : Nat) : Word := BitVec.ofNat 256 n

theorem uintWord_inj (hn : n < 2 ^ 256) (hk : k < 2 ^ 256) (h : uintWord n = uintWord k) : n = k := by
  have := congrArg BitVec.toNat h
  rwa [uintWord, uintWord, BitVec.toNat_ofNat, BitVec.toNat_ofNat, Nat.mod_eq_of_lt hn,
    Nat.mod_eq_of_lt hk] at this

def addressWord (a : Address) : Word := uintWord a.toNat

/-- An address in a packed encoding. -/
def addressBytes (a : Address) : List UInt8 := bigEndian 20 a.toNat

/-! ## Assets -/

/-- The chain's own value, or an ERC-20 token. -/
inductive Asset where
  | native
  | erc20 (token : Address)
deriving DecidableEq

/-! ## `uint256` amounts as natural numbers -/

section Amounts

variable {ε : Type} {e : ε} {a b c : Nat}

/-- A `uint256` addition; `e` is the compiler's revert. -/
def addU (e : ε) (a b : Nat) : Except ε Nat := if 2 ^ 256 ≤ a + b then .error e else .ok (a + b)

def subU (e : ε) (a b : Nat) : Except ε Nat := if a < b then .error e else .ok (a - b)

def mulU (e : ε) (a b : Nat) : Except ε Nat := if 2 ^ 256 ≤ a * b then .error e else .ok (a * b)

theorem addU_ok_iff : addU e a b = .ok c ↔ a + b < 2 ^ 256 ∧ c = a + b := by
  rw [addU, ite_error_ok_iff, Nat.not_le, Except.ok.injEq, eq_comm]

theorem subU_ok_iff : subU e a b = .ok c ↔ b ≤ a ∧ c = a - b := by
  rw [subU, ite_error_ok_iff, Nat.not_lt, Except.ok.injEq, eq_comm]

theorem mulU_ok_iff : mulU e a b = .ok c ↔ a * b < 2 ^ 256 ∧ c = a * b := by
  rw [mulU, ite_error_ok_iff, Nat.not_le, Except.ok.injEq, eq_comm]

theorem subU_of_le (e : ε) (h : b ≤ a) : subU e a b = .ok (a - b) := if_neg (Nat.not_lt.mpr h)

variable {P : ε → Prop}

theorem yields_addU (h : P e) : Yields (fun c => a + b < 2 ^ 256 ∧ c = a + b) P (addU e a b) := by
  rw [addU]
  split
  · exact h
  · exact ⟨by omega, rfl⟩

theorem yields_mulU (h : P e) : Yields (fun c => a * b < 2 ^ 256 ∧ c = a * b) P (mulU e a b) := by
  rw [mulU]
  split
  · exact h
  · rename_i hc
    exact ⟨Nat.not_le.mp hc, rfl⟩

theorem yields_addU_full (h : 2 ^ 256 ≤ a + b → P e) : Yields (fun c => c = a + b) P (addU e a b) := by
  rw [addU]
  split
  · rename_i hfull
    exact h hfull
  · exact rfl

theorem yields_mulU_full (h : 2 ^ 256 ≤ a * b → P e) : Yields (fun c => c = a * b) P (mulU e a b) := by
  rw [mulU]
  split
  · rename_i hfull
    exact h hfull
  · exact rfl

theorem yields_subU (h : b ≤ a) : Yields (fun c => c = a - b) P (subU e a b) := by
  rw [subU_of_le e h]
  exact rfl

end Amounts

/-! ## Hashed strings -/

/-- No two of the strings have one hash. -/
def NoCollision {D : Type} (hash : List UInt8 → D) (strings : List (List UInt8)) : Prop :=
  ∀ x ∈ strings, ∀ y ∈ strings, hash x = hash y → x = y

instance decidableNoCollision {D : Type} [DecidableEq D] (hash : List UInt8 → D) (strings : List (List UInt8)) :
    Decidable (NoCollision hash strings) := by
  unfold NoCollision
  infer_instance

theorem NoCollision.mono {D : Type} {hash : List UInt8 → D} {strings few : List (List UInt8)}
    (h : NoCollision hash strings) (hsub : few ⊆ strings) : NoCollision hash few :=
  fun x hx y hy => h x (hsub hx) y (hsub hy)

end Solidity
