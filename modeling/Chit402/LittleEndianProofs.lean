import Mathlib.Data.Nat.Digits.Lemmas

/-! # Little-endian byte strings

    A byte string as a number, least significant byte first: the digits of
    the number in base 256, so concatenation and bounds are those of
    `Nat.ofDigits`.  The second part counts the leading zero bits of a
    string read from its other end. -/

namespace LittleEndian

/-- The number a byte string spells. -/
def value (bytes : List UInt8) : ℕ := Nat.ofDigits 256 (bytes.map UInt8.toNat)

/-- Byte `i` of a number. -/
def byteAt (n i : ℕ) : UInt8 := UInt8.ofNat (n / 256 ^ i)

@[simp] theorem value_cons (b : UInt8) (bytes : List UInt8) : value (b :: bytes) = b.toNat + 256 * value bytes :=
  Nat.ofDigits_cons

theorem value_append (l r : List UInt8) : value (l ++ r) = value l + 256 ^ l.length * value r := by
  unfold value
  rw [List.map_append, Nat.ofDigits_append, List.length_map]

theorem value_lt (bytes : List UInt8) : value bytes < 256 ^ bytes.length := by
  have h := Nat.ofDigits_lt_base_pow_length (b := 256) (l := bytes.map UInt8.toNat) (by decide) ?_
  · rw [List.length_map] at h
    exact h
  · intro d hd
    obtain ⟨b, -, rfl⟩ := List.mem_map.mp hd
    exact b.toNat_lt

theorem value_replicate_zero (n : ℕ) : value (List.replicate n 0) = 0 := by
  induction n with
  | zero => rfl
  | succ n ih =>
    rw [List.replicate_succ, value_cons, ih]
    rfl

theorem byteAt_zero (n : ℕ) : (byteAt n 0).toNat = n % 256 := by
  rw [byteAt, Nat.pow_zero, Nat.div_one, UInt8.toNat_ofNat']

theorem byteAt_succ (n i : ℕ) : byteAt n (i + 1) = byteAt (n / 256) i := by
  rw [byteAt, byteAt, Nat.pow_succ', Nat.div_div_eq_div_mul]

theorem value_ofFn_byteAt (w n : ℕ) : value (List.ofFn fun i : Fin w => byteAt n i) = n % 256 ^ w := by
  induction w generalizing n with
  | zero =>
    rw [List.ofFn_zero, Nat.pow_zero, Nat.mod_one]
    rfl
  | succ w ih =>
    have htail : (fun i : Fin w => byteAt n i.succ) = fun i : Fin w => byteAt (n / 256) i := by
      funext i
      exact byteAt_succ n i
    rw [List.ofFn_succ, value_cons, htail, ih, Fin.val_zero, byteAt_zero, Nat.pow_succ', Nat.mod_mul]

/-! ## Leading zeros -/

/-- Zero bits before the first set bit, most significant byte first. -/
def leadingZeros : List UInt8 → ℕ
  | [] => 0
  | b :: rest => if b = 0 then 8 + leadingZeros rest else 7 - Nat.log2 b.toNat

end LittleEndian
