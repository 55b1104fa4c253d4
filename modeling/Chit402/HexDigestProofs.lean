import Chit402.SolidityProofs

/-! # Lowercase hex of a 32-byte digest

    Digests travel as 64 lowercase hex digits.  `toHexChars` and
    `fromHexChars` are inverse on the strings a wire parser accepts, so a
    digest and its wire string determine each other. -/

namespace HexDigest

/-- The sixteen digits, in order. -/
def hexAlphabet : List Char :=
  ['0', '1', '2', '3', '4', '5', '6', '7', '8', '9', 'a', 'b', 'c', 'd', 'e', 'f']

/-- The characters of a text are checked one by one. -/
instance decidableAllChars (cs : List Char) (q : Char → Prop) [DecidablePred q] : Decidable (∀ c ∈ cs, q c) :=
  List.decidableBAll q cs

instance decidableAnyChar (cs : List Char) (q : Char → Prop) [DecidablePred q] : Decidable (∃ c ∈ cs, q c) :=
  List.decidableBEx q cs

/-- The digit of a value below 16. -/
def hexDigit (n : Nat) : Char := hexAlphabet.getD n '0'

/-- The value of a digit (16 when it is none). -/
def hexVal (c : Char) : Nat := hexAlphabet.idxOf c

/-- Two digits a byte, high half first. -/
def toHexChars : List UInt8 → List Char
  | [] => []
  | b :: bs => hexDigit (b.toNat / 16) :: hexDigit (b.toNat % 16) :: toHexChars bs

/-- Bytes from digit pairs; a trailing single digit is dropped. -/
def fromHexChars : List Char → List UInt8
  | a :: b :: rest => UInt8.ofNat (16 * hexVal a + hexVal b) :: fromHexChars rest
  | _ => []

variable {c : Char} {n : Nat}

theorem hexVal_hexDigit (h : n < 16) : hexVal (hexDigit n) = n := by
  have hall : ∀ k : Fin 16, hexVal (hexDigit k) = k := by decide
  exact hall ⟨n, h⟩

theorem hexDigit_mem (h : n < 16) : hexDigit n ∈ hexAlphabet := by
  have hall : ∀ k : Fin 16, hexDigit k ∈ hexAlphabet := by decide
  exact hall ⟨n, h⟩

theorem hexDigit_hexVal (h : c ∈ hexAlphabet) : hexDigit (hexVal c) = c := by
  have hall : hexAlphabet.all (fun c => hexDigit (hexVal c) = c) = true := rfl
  exact of_decide_eq_true (List.all_eq_true.mp hall c h)

theorem hexVal_lt (h : c ∈ hexAlphabet) : hexVal c < 16 := by
  have hall : hexAlphabet.all (fun c => hexVal c < 16) = true := rfl
  exact of_decide_eq_true (List.all_eq_true.mp hall c h)

@[simp] theorem length_toHexChars (bs : List UInt8) : (toHexChars bs).length = 2 * bs.length := by
  induction bs with
  | nil => rfl
  | cons b bs ih =>
    simp only [toHexChars, List.length_cons, ih]
    omega

theorem toHexChars_lower (bs : List UInt8) : ∀ c ∈ toHexChars bs, c ∈ hexAlphabet := by
  induction bs with
  | nil => exact fun c hc => nomatch hc
  | cons b bs ih =>
    intro c hc
    have hb := b.toNat_lt
    rcases List.mem_cons.mp hc with rfl | hc
    · exact hexDigit_mem (by omega)
    · rcases List.mem_cons.mp hc with rfl | hc
      · exact hexDigit_mem (by omega)
      · exact ih c hc

theorem fromHexChars_toHexChars (bs : List UInt8) : fromHexChars (toHexChars bs) = bs := by
  induction bs with
  | nil => rfl
  | cons b bs ih =>
    have hb := b.toNat_lt
    have hbyte : 16 * (b.toNat / 16) + b.toNat % 16 = b.toNat := by omega
    rw [toHexChars, fromHexChars, ih, hexVal_hexDigit (by omega), hexVal_hexDigit (by omega),
      hbyte, UInt8.ofNat_toNat]

theorem toHexChars_fromHexChars {cs : List Char} (hlow : ∀ c ∈ cs, c ∈ hexAlphabet)
    (heven : cs.length % 2 = 0) : toHexChars (fromHexChars cs) = cs := by
  fun_induction fromHexChars cs with
  | case1 a b rest ih =>
    have ha := hexVal_lt (hlow a (by simp))
    have hb := hexVal_lt (hlow b (by simp))
    have hrest := ih (fun c hc => hlow c (by simp [hc])) (by
      simp only [List.length_cons] at heven
      omega)
    have hbyte : (UInt8.ofNat (16 * hexVal a + hexVal b)).toNat
        = 16 * hexVal a + hexVal b := by
      rw [UInt8.toNat_ofNat']
      omega
    rw [toHexChars, hrest, hbyte, show (16 * hexVal a + hexVal b) / 16 = hexVal a by omega,
      show (16 * hexVal a + hexVal b) % 16 = hexVal b by omega,
      hexDigit_hexVal (hlow a (by simp)), hexDigit_hexVal (hlow b (by simp))]
  | case2 cs h =>
    match cs, h with
    | [], _ => rfl
    | [a], _ => simp at heven
    | a :: b :: rest, h => exact absurd rfl (h a b rest)

theorem length_fromHexChars (cs : List Char) : (fromHexChars cs).length = cs.length / 2 := by
  fun_induction fromHexChars cs with
  | case1 a b rest ih =>
    simp only [List.length_cons, ih]
    omega
  | case2 cs h =>
    match cs, h with
    | [], _ => rfl
    | [a], _ => simp
    | a :: b :: rest, h => exact absurd rfl (h a b rest)

/-- A 32-byte hash value. -/
@[ext] structure Digest where
  bytes : List UInt8
  size : bytes.length = 32
deriving DecidableEq

theorem length_zeros : (List.replicate 32 (0 : UInt8)).length = 32 := rfl

/-- A `bytes32` as a digest. -/
def Digest.ofWord (w : Solidity.Word) : Digest := ⟨Solidity.wordBytes w, Solidity.length_wordBytes w⟩

/-- A digest that repeats a byte. -/
def Digest.filled (b : UInt8) : Digest := ⟨List.replicate 32 b, List.length_replicate⟩

/-- The wire form of a digest. -/
def Digest.toHex (d : Digest) : String := String.ofList (toHexChars d.bytes)

/-- A string the wire accepts: 64 lowercase digits. -/
def IsWireHash (s : String) : Prop :=
  s.toList.length = 64 ∧ ∀ c ∈ s.toList, c ∈ hexAlphabet

instance (s : String) : Decidable (IsWireHash s) := by
  unfold IsWireHash
  infer_instance

def Digest.ofWire (s : String) (h : s.toList.length = 64) : Digest :=
  ⟨fromHexChars s.toList, by rw [length_fromHexChars, h]⟩

theorem Digest.toHex_toList (d : Digest) : d.toHex.toList = toHexChars d.bytes :=
  String.toList_ofList

theorem Digest.isWireHash (d : Digest) : IsWireHash d.toHex := by
  constructor
  · rw [d.toHex_toList, length_toHexChars, d.size]
  · rw [d.toHex_toList]
    exact toHexChars_lower d.bytes

theorem Digest.ofWire_toHex (d : Digest) (h : d.toHex.toList.length = 64) : Digest.ofWire d.toHex h = d := by
  obtain ⟨bytes, size⟩ := d
  simp only [Digest.ofWire, Digest.toHex_toList, fromHexChars_toHexChars]

theorem Digest.toHex_ofWire {s : String} (h : IsWireHash s) : (Digest.ofWire s h.1).toHex = s := by
  apply String.toList_injective
  rw [Digest.toHex_toList]
  exact toHexChars_fromHexChars h.2 (by rw [h.1])

theorem Digest.toHex_injective : Function.Injective Digest.toHex := by
  intro a b hab
  have h64 : a.toHex.toList.length = 64 := a.isWireHash.1
  rw [← a.ofWire_toHex h64, ← b.ofWire_toHex b.isWireHash.1]
  congr 1

end HexDigest
