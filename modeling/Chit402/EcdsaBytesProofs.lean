import Chit402.FixedRecordProofs
import Chit402.SolidityProofs

/-! # Bytes and integers of the checkpoint signature path

    The helpers of the module below RLP, DER and the transaction encoding:
    big-endian integers with and without a width, and arithmetic on lengths,
    which are doubles.  A length from `2 ^ 53` on is rounded, but never to a
    number below `2 ^ 53`, and no buffer is that long. -/

namespace EcdsaBytes

open FixedRecord Solidity

/-! ## Integers -/

/-- `bytesToBig` -/
abbrev bytesToBig (bytes : List UInt8) : ℕ := ofBigEndian bytes

/-- `bigToBytes`: `none` is its `scalar overflow`. -/
def bigToBytes (value length : ℕ) : Option (List UInt8) :=
  if value < 256 ^ length then some (bigEndian length value) else none

/-- The bytes of an integer without leading zeros: a loop that pushes the low byte and shifts, reversed. -/
def bigBytes (n : ℕ) : List UInt8 :=
  if n = 0 then [] else bigBytes (n / 256) ++ [UInt8.ofNat (n % 256)]

/-- No leading zero: the bytes are the shortest ones for their value. -/
def NoLeadingZero (bytes : List UInt8) : Prop := bytes.head? ≠ some 0

theorem bigBytes_zero : bigBytes 0 = [] := by
  rw [bigBytes, if_pos rfl]

variable {rest : List UInt8} {b : UInt8} {n : ℕ}

theorem bigBytes_pos (h : 0 < n) : bigBytes n = bigBytes (n / 256) ++ [UInt8.ofNat (n % 256)] := by
  rw [bigBytes, if_neg (by omega)]

theorem toNat_ofNat_mod (n : ℕ) : (UInt8.ofNat (n % 256)).toNat = n % 256 := by
  rw [UInt8.toNat_ofNat']
  omega

theorem ofBigEndian_bigBytes (n : ℕ) : ofBigEndian (bigBytes n) = n := by
  induction n using Nat.strongRecOn with
  | ind n ih =>
    rcases Nat.eq_zero_or_pos n with rfl | hpos
    · rw [bigBytes_zero]
      rfl
    · rw [bigBytes_pos hpos, ofBigEndian_concat, ih _ (by omega), toNat_ofNat_mod]
      omega

theorem bigBytes_ne_nil (h : 0 < n) : bigBytes n ≠ [] := by
  rw [bigBytes_pos h]
  simp

theorem noLeadingZero_concat {bytes : List UInt8} (h : bytes ≠ []) :
    NoLeadingZero (bytes ++ [b]) ↔ NoLeadingZero bytes := by
  obtain ⟨first, rest, rfl⟩ := List.exists_cons_of_ne_nil h
  exact Iff.rfl

theorem noLeadingZero_bigBytes (n : ℕ) : NoLeadingZero (bigBytes n) := by
  induction n using Nat.strongRecOn with
  | ind n ih =>
    rcases Nat.eq_zero_or_pos n with rfl | hpos
    · rw [bigBytes_zero]
      nofun
    · rw [bigBytes_pos hpos]
      rcases Nat.eq_zero_or_pos (n / 256) with hzero | hhigh
      · -- a single byte, which is not zero
        rw [hzero, bigBytes_zero]
        intro h
        have hbyte : (UInt8.ofNat (n % 256)).toNat = 0 := congrArg UInt8.toNat (Option.some.inj h)
        rw [toNat_ofNat_mod] at hbyte
        omega
      · exact (noLeadingZero_concat (bigBytes_ne_nil hhigh)).2 (ih _ (by omega))

/-- Bytes without a leading zero have a positive value, unless there are none. -/
theorem ofBigEndian_pos {bytes : List UInt8} (h : NoLeadingZero bytes) (hne : bytes ≠ []) : 0 < ofBigEndian bytes := by
  induction bytes using List.reverseRecOn with
  | nil => exact (hne rfl).elim
  | append_singleton bytes b ih =>
    rw [ofBigEndian_concat]
    cases bytes with
    | nil =>
      have hb : b.toNat ≠ 0 := by
        intro hzero
        exact h (congrArg some (UInt8.toNat_inj.1 hzero))
      omega
    | cons first rest =>
      have hpos : 0 < ofBigEndian (first :: rest) := ih ((noLeadingZero_concat (by simp)).1 h) (by simp)
      omega

theorem bigBytes_ofBigEndian {bytes : List UInt8} (h : NoLeadingZero bytes) : bigBytes (ofBigEndian bytes) = bytes := by
  induction bytes using List.reverseRecOn with
  | nil => exact bigBytes_zero
  | append_singleton bytes b ih =>
    have hpos : 0 < ofBigEndian (bytes ++ [b]) := ofBigEndian_pos h (by simp)
    have hb := b.toNat_lt
    rw [bigBytes_pos hpos, ofBigEndian_concat, show (256 * ofBigEndian bytes + b.toNat) / 256
      = ofBigEndian bytes by omega,
      show (256 * ofBigEndian bytes + b.toNat) % 256 = b.toNat by omega, UInt8.ofNat_toNat]
    cases bytes with
    | nil => rw [show ofBigEndian [] = 0 from rfl, bigBytes_zero]
    | cons first rest => rw [ih ((noLeadingZero_concat (by simp)).1 h)]

theorem length_bigBytes_le {k : ℕ} (h : n < 256 ^ k) : (bigBytes n).length ≤ k := by
  induction k generalizing n with
  | zero =>
    rw [Nat.pow_zero] at h
    obtain rfl : n = 0 := by omega
    rw [bigBytes_zero]
    exact Nat.le_refl 0
  | succ k ih =>
    rcases Nat.eq_zero_or_pos n with rfl | hpos
    · rw [bigBytes_zero]
      exact Nat.zero_le _
    · rw [Nat.pow_succ] at h
      rw [bigBytes_pos hpos, List.length_append, List.length_singleton]
      exact Nat.succ_le_succ (ih (by omega))

/-- The bytes of a width are the minimal ones behind zeros. -/
theorem bigEndian_eq_bigBytes {width : ℕ} (h : n < 256 ^ width) :
    bigEndian width n = List.replicate (width - (bigBytes n).length) 0 ++ bigBytes n := by
  induction width generalizing n with
  | zero =>
    rw [Nat.pow_zero] at h
    obtain rfl : n = 0 := by omega
    rw [bigBytes_zero]
    rfl
  | succ width ih =>
    have hdiv : n / 256 < 256 ^ width := by
      rw [Nat.pow_succ] at h
      omega
    rw [bigEndian, ih hdiv]
    rcases Nat.eq_zero_or_pos n with rfl | hpos
    · rw [Nat.zero_div, bigBytes_zero, List.append_nil, List.append_nil, List.length_nil, Nat.sub_zero, Nat.sub_zero,
        List.replicate_succ']
      rfl
    · rw [bigBytes_pos hpos, List.length_append, List.length_singleton, Nat.add_sub_add_right, List.append_assoc]

/-! ## Offsets -/

section Offsets

variable {buf bytes after : List UInt8} {offset : ℕ}

theorem head_slice (buf : List UInt8) {count : ℕ} (h : 0 < count) : (slice buf offset count).head? = buf[offset]? := by
  rw [slice, List.head?_take, if_neg (by omega), List.head?_drop]

theorem ofNat_of_toNat (h : b.toNat = n) : UInt8.ofNat n = b := by
  rw [← h, UInt8.ofNat_toNat]

theorem getElem?_of_drop (h : buf.drop offset = b :: rest) : buf[offset]? = some b := by
  rw [← List.head?_drop, h, List.head?_cons]

theorem drop_succ_of_drop (h : buf.drop offset = b :: rest) : buf.drop (offset + 1) = rest := by
  rw [← List.drop_drop, h, List.drop_one, List.tail_cons]

theorem drop_add_of_drop (h : buf.drop offset = bytes ++ after) : buf.drop (offset + bytes.length) = after := by
  rw [← List.drop_drop, h, List.drop_left]

theorem slice_of_drop (h : buf.drop offset = bytes ++ after) : slice buf offset bytes.length = bytes := by
  rw [slice, h, List.take_left]

theorem length_of_drop (h : buf.drop offset = bytes ++ after) (hne : bytes ≠ []) :
    offset + bytes.length + after.length = buf.length := by
  have hlen := congrArg List.length h
  have hpos := List.length_pos_iff.2 hne
  rw [List.length_drop, List.length_append] at hlen
  omega

end Offsets

/-! ## Doubles -/

/-- The double nearest to a natural number, ties to even. -/
@[irreducible] def roundDouble (n : ℕ) : ℕ :=
  if n < 2 ^ 53 then n
  else
    let unit := 2 ^ (n.log2 - 52)
    let rest := n % unit
    if unit < 2 * rest ∨ (2 * rest = unit ∧ n / unit % 2 = 1) then (n / unit + 1) * unit else n / unit * unit

theorem roundDouble_of_lt (h : n < 2 ^ 53) : roundDouble n = n := by
  unfold roundDouble
  exact if_pos h

/-- Rounding does not reach below `2 ^ 53`. -/
theorem le_roundDouble (h : 2 ^ 53 ≤ n) : 2 ^ 53 ≤ roundDouble n := by
  have hne : n ≠ 0 := by omega
  have hlog : 53 ≤ n.log2 := (Nat.le_log2 hne).2 h
  have hpow : 2 ^ n.log2 ≤ n := Nat.log2_self_le hne
  have hunit : 2 ^ n.log2 = 2 ^ 52 * 2 ^ (n.log2 - 52) := by
    rw [← Nat.pow_add]
    congr 1
    omega
  have hquot : 2 ^ 52 ≤ n / 2 ^ (n.log2 - 52) := by
    rw [Nat.le_div_iff_mul_le (Nat.two_pow_pos _), ← hunit]
    exact hpow
  have htwo : 2 ≤ 2 ^ (n.log2 - 52) := by
    calc 2 = 2 ^ 1 := rfl
      _ ≤ 2 ^ (n.log2 - 52) := Nat.pow_le_pow_right (by decide) (by omega)
  have hfloor : 2 ^ 53 ≤ n / 2 ^ (n.log2 - 52) * 2 ^ (n.log2 - 52) := by
    calc 2 ^ 53 = 2 ^ 52 * 2 := rfl
      _ ≤ _ := Nat.mul_le_mul hquot htwo
  unfold roundDouble
  rw [if_neg (by omega)]
  dsimp only
  split_ifs
  · exact Nat.le_trans hfloor (Nat.mul_le_mul_right _ (Nat.le_succ _))
  · exact hfloor

theorem roundDouble_eq_of_lt (h : roundDouble n < 2 ^ 53) : n < 2 ^ 53 ∧ roundDouble n = n := by
  have hlt : n < 2 ^ 53 := by
    by_contra hge
    have hle := le_roundDouble (Nat.le_of_not_lt hge)
    omega
  exact ⟨hlt, roundDouble_of_lt hlt⟩

/-- `len = len * 256 + byte`, over the bytes of a length. -/
def doubleBytes (bytes : List UInt8) : ℕ :=
  bytes.foldl (fun len b => roundDouble (roundDouble (256 * len) + b.toNat)) 0

theorem doubleBytes_concat (bytes : List UInt8) (b : UInt8) :
    doubleBytes (bytes ++ [b]) = roundDouble (roundDouble (256 * doubleBytes bytes) + b.toNat) := by
  unfold doubleBytes
  rw [List.foldl_append]
  rfl

theorem le_roundDouble_of_le {m : ℕ} (h : 2 ^ 53 ≤ n) : 2 ^ 53 ≤ roundDouble (roundDouble n + m) :=
  le_roundDouble (Nat.le_trans (le_roundDouble h) (Nat.le_add_right _ _))

/-- The double is the number the bytes spell, or both are out of any buffer. -/
theorem doubleBytes_cases (bytes : List UInt8) : (ofBigEndian bytes < 2 ^ 53 ∧ doubleBytes bytes = ofBigEndian bytes)
      ∨ (2 ^ 53 ≤ ofBigEndian bytes ∧ 2 ^ 53 ≤ doubleBytes bytes) := by
  induction bytes using List.reverseRecOn with
  | nil => exact Or.inl ⟨by decide, rfl⟩
  | append_singleton bytes b ih =>
    rw [doubleBytes_concat, ofBigEndian_concat]
    rcases ih with ⟨-, hsame⟩ | ⟨hge, hge'⟩
    · rw [hsame]
      by_cases hbig : 2 ^ 53 ≤ 256 * ofBigEndian bytes
      · exact Or.inr ⟨by omega, le_roundDouble_of_le hbig⟩
      · have hinner : roundDouble (256 * ofBigEndian bytes) = 256 * ofBigEndian bytes := roundDouble_of_lt (by omega)
        rw [hinner]
        by_cases hsum : 256 * ofBigEndian bytes + b.toNat < 2 ^ 53
        · exact Or.inl ⟨hsum, roundDouble_of_lt hsum⟩
        · exact Or.inr ⟨by omega, le_roundDouble (by omega)⟩
    · exact Or.inr ⟨by omega, le_roundDouble_of_le (by omega)⟩

theorem doubleBytes_of_lt {bytes : List UInt8} (h : doubleBytes bytes < 2 ^ 53) :
    doubleBytes bytes = ofBigEndian bytes := by
  rcases doubleBytes_cases bytes with ⟨-, hsame⟩ | ⟨-, hge⟩
  · exact hsame
  · omega

end EcdsaBytes
