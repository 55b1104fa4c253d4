import Chit402.KeyRegistryProofs

/-! # The fields of a line

    How the line codec reads one field of a caller's object: fixed byte
    strings in bytes or lowercase hex, integers in five spellings, the block
    hash, and the URI prefix.  `meaning` says, without the codec, what a value
    stands for in a field. -/

namespace LineField

open ExceptFlow HexDigest JsValue KeyRegistry Solidity

/-- The fixed refusal reasons. -/
inductive Reason where
  | badType | badLength | badHeader | badHex | badUint | badRange | missingBlockHash | badPadding | badKind
  | badIdLength | badDepth | badSalt | badSigma | badAlg | badUri | unknownField | nonceNone
deriving DecidableEq

def UINT_BITS : List (String × ℕ) := [("chainId", 64), ("blockNumber", 64), ("blockTime", 64), ("txIndex", 32),
  ("localLogIndex", 16), ("value", 256), ("method", 8), ("requestMethod", 8), ("alg", 8)]

def uintBits (name : String) : Option ℕ := UINT_BITS.lookup name

/-! ## Readers -/

def readFixed (value : Js) (width : ℕ) : Except Reason (List UInt8) :=
  match value with
  | .bytes b => if b.length ≠ width then .error .badLength else .ok b
  | .string s =>
    let hexBody := chars s
    if hexBody.length % 2 ≠ 0 then .error .badHex
    else if hexBody = [] ∨ ¬ ∀ c ∈ hexBody, c ∈ hexAlphabet then .error .badHex
    else if hexBody.length ≠ width * 2 then .error .badLength
    else .ok (fromHexChars hexBody)
  | _ => .error .badType

def isZero (bytes : List UInt8) : Bool := bytes.all (· = 0)

def checkBlockHash (bytes : List UInt8) : Except Reason (List UInt8) :=
  if isZero bytes then .error .missingBlockHash else .ok bytes

def readBlockHash (value : Js) : Except Reason (List UInt8) :=
  match value with
  | .undefined | .null | .string [] => .error .missingBlockHash
  | value => readFixed value 32 >>= checkBlockHash

/-- `/^(0|[1-9][0-9]*)$/` -/
def isDecimal (digits : List Char) : Bool :=
  digits = ['0'] || (digits.head?.any (fun c => '1' ≤ c && c ≤ '9') && digits.all Char.isDigit)

/-- `BigInt(text)` of decimal digits. -/
def decimalValue (digits : List Char) : ℕ := digits.foldl (fun n c => 10 * n + (c.toNat - '0'.toNat)) 0

def maxUint (bits : ℕ) : ℕ := 2 ^ bits - 1

def readUint (value : Js) (bits : ℕ) : Except Reason ℕ :=
  match value with
  | .bigint z => if z < 0 ∨ (maxUint bits : ℤ) < z then .error .badRange else .ok z.toNat
  | .number .negZero => .error .badRange
  | .number .other => .error .badUint
  | .number (.int z) =>
    if ¬ isSafeInteger z then .error .badUint
    else if z < 0 ∨ (maxUint bits : ℤ) < z then .error .badRange
    else .ok z.toNat
  | .bytes b => if b.length ≠ bits / 8 then .error .badLength else .ok (ofBigEndian b)
  | .string s =>
    if s.length = 0 ∨ 78 < s.length then .error .badUint
    else if ¬ isDecimal (chars s) then .error .badUint
    else if maxUint bits < decimalValue (chars s) then .error .badRange
    else .ok (decimalValue (chars s))
  | _ => .error .badType

/-- The text before the first NUL. -/
def prefixBody (bytes : List UInt8) : List UInt8 := bytes.takeWhile (· ≠ 0)

/-- NULs only at the end, and UTF-8 without a NUL before them. -/
def uriPrefixOk (bytes : List UInt8) : Bool :=
  let body := prefixBody bytes
  (bytes.drop body.length).all (· = 0) && isUtf8 body && !body.contains 0

/-- `/^[0-9a-fA-F]{512}$/` -/
def isHex512 (text : List Char) : Bool :=
  text.length = 512 && text.all fun c => c ∈ hexAlphabet || ('A' ≤ c && c ≤ 'F')

/-- Up to 256 bytes, padded with NULs. -/
def padPrefix (bytes : List UInt8) : Except Reason (List UInt8) :=
  if 256 < bytes.length then .error .badLength else .ok (bytes ++ List.replicate (256 - bytes.length) 0)

def prefixBytes (value : Js) : Except Reason (List UInt8) :=
  match value with
  | .bytes b => padPrefix b
  | .string s =>
    if 0 ∈ s then .error .badUri
    else if isHex512 (chars s) then
      if ¬ ∀ c ∈ chars s, c ∈ hexAlphabet then .error .badHex else readFixed value 256
    else padPrefix (textEncode s)
  | _ => .error .badType

def checkPrefix (bytes : List UInt8) : Except Reason (List UInt8) :=
  if uriPrefixOk bytes then .ok bytes else .error .badUri

def readUriPrefix (value : Js) : Except Reason (List UInt8) := prefixBytes value >>= checkPrefix

def requireAlg (alg : ℕ) : Except Reason Unit := revertIf (alg ∉ LAUNCH_ALGS) .badAlg

def checkSigma (sigma64 : List UInt8) : Except Reason Unit :=
  if inSigmaRange sigma64 then .ok ()
  else if sigma64.length ≠ 64 then .error .badLength
  else .error .badSigma

def checkSalts (saltP saltC : List UInt8) : Except Reason Unit :=
  revertIf (isZero saltP = true ∨ isZero saltC = true ∨ saltP = saltC) .badSalt

/-- An integer field: the algorithm byte must be an admitted one. -/
def readUintField (name : String) (value : Js) (size bits : ℕ) : Except Reason (List UInt8) := do
  let parsed ← readUint value bits
  revertIf (name = "alg" ∧ parsed ∉ LAUNCH_ALGS) .badAlg
  .ok (bigEndian size parsed)

def readField (name : String) (value : Js) (size : ℕ) : Except Reason (List UInt8) :=
  if name = "blockHash" then readBlockHash value
  else if name = "uriPrefix" then readUriPrefix value
  else match uintBits name with
    | some bits => readUintField name value size bits
    | none => readFixed value size

/-- What the decoder hands out for a field. -/
def fieldValue (name : String) (size : ℕ) (bytes : List UInt8) : Js :=
  if (uintBits name).isSome then
    if size ≤ 4 then .number (.int (ofBigEndian bytes)) else .bigint (ofBigEndian bytes)
  else .bytes bytes

/-! ## What a value stands for -/

/-- An integer, a byte string, or a text before its padding. -/
inductive Meaning where
  | number (z : ℤ)
  | bytes (b : List UInt8)
  | text (b : List UInt8)
deriving DecidableEq

def numberOf : Js → Option ℤ
  | .bigint z | .number (.int z) => some z
  | .bytes b => some (ofBigEndian b)
  | .string s => some (decimalValue (chars s))
  | _ => none

def bytesOf : Js → Option (List UInt8)
  | .bytes b => some b
  | .string s => some (fromHexChars (chars s))
  | _ => none

def textOf : Js → Option (List UInt8)
  | .bytes b => some (prefixBody b)
  | .string s => some (prefixBody (if isHex512 (chars s) then fromHexChars (chars s) else textEncode s))
  | _ => none

/-- **What a value denotes in a field**, whichever way it is spelled. -/
def meaning (name : String) (value : Js) : Option Meaning :=
  if name = "uriPrefix" then (textOf value).map .text
  else if (uintBits name).isSome then (numberOf value).map .number
  else (bytesOf value).map .bytes

/-! ## Fixed byte strings -/

variable {v : Js} {a b bytes : List UInt8} {name : String} {bits n size width : ℕ}

theorem readFixed_bytes (h : b.length = width) : readFixed (.bytes b) width = .ok b := by
  rw [readFixed, if_neg (not_not.mpr h)]

theorem readFixed_ok (h : readFixed v width = .ok b) : b.length = width ∧ bytesOf v = some b := by
  unfold readFixed at h
  split at h
  · rw [ite_error_ok_iff] at h
    cases h.2
    exact ⟨not_not.mp h.1, rfl⟩
  · dsimp only at h
    rw [ite_error_ok_iff, ite_error_ok_iff, ite_error_ok_iff] at h
    obtain ⟨-, -, hlength, h⟩ := h
    cases h
    refine ⟨?_, rfl⟩
    rw [length_fromHexChars]
    omega
  · cases h

theorem readBlockHash_ok (h : readBlockHash v = .ok b) : readFixed v 32 = .ok b ∧ isZero b = false := by
  unfold readBlockHash at h
  split at h
  iterate 3 cases h
  obtain ⟨bytes, hread, h⟩ := bind_iff.mp h
  rw [checkBlockHash, ite_error_ok_iff] at h
  cases h.2
  exact ⟨hread, by simpa using h.1⟩

theorem readBlockHash_bytes (hlength : b.length = 32) (hzero : isZero b = false) :
    readBlockHash (.bytes b) = .ok b := by
  show readFixed (.bytes b) 32 >>= checkBlockHash = .ok b
  rw [readFixed_bytes hlength, ok_bind, checkBlockHash, hzero]
  rfl

/-! ## Integers -/

theorem lt_of_le_maxUint (h : n ≤ maxUint bits) : n < 2 ^ bits := by
  have hpos := Nat.two_pow_pos bits
  unfold maxUint at h
  omega

theorem ofBigEndian_lt_bits (h : b.length = size) : ofBigEndian b < 2 ^ (8 * size) := by
  have hlt := ofBigEndian_lt b
  rw [h, show 256 = 2 ^ 8 from rfl, ← Nat.pow_mul] at hlt
  exact hlt

theorem readUint_ok (h : readUint v (8 * size) = .ok n) : n < 2 ^ (8 * size) ∧ numberOf v = some (n : ℤ) := by
  unfold readUint at h
  split at h
  · rename_i z
    rw [ite_error_ok_iff, not_or] at h
    obtain ⟨⟨h0, hmax⟩, h⟩ := h
    cases h
    exact ⟨lt_of_le_maxUint (by omega), congrArg some (by omega)⟩
  · cases h
  · cases h
  · rename_i z
    rw [ite_error_ok_iff, ite_error_ok_iff, not_or] at h
    obtain ⟨-, ⟨h0, hmax⟩, h⟩ := h
    cases h
    exact ⟨lt_of_le_maxUint (by omega), congrArg some (by omega)⟩
  · rename_i b
    rw [ite_error_ok_iff] at h
    cases h.2
    exact ⟨ofBigEndian_lt_bits (by omega), rfl⟩
  · rename_i s
    rw [ite_error_ok_iff, ite_error_ok_iff, ite_error_ok_iff] at h
    obtain ⟨-, -, hmax, h⟩ := h
    cases h
    exact ⟨lt_of_le_maxUint (by omega), rfl⟩
  · cases h

theorem readUint_bigint (h : n < 2 ^ bits) : readUint (.bigint n) bits = .ok n := by
  rw [readUint, if_neg, Int.toNat_natCast]
  unfold maxUint
  omega

theorem readUint_number (h : n < 2 ^ bits) (hsafe : (n : ℤ) ≤ MAX_SAFE_INTEGER) :
    readUint (.number (.int n)) bits = .ok n := by
  rw [readUint, if_neg, if_neg, Int.toNat_natCast]
  · unfold maxUint
    omega
  · rw [not_not, isSafeInteger, Bool.and_eq_true, decide_eq_true_iff, decide_eq_true_iff]
    unfold MAX_SAFE_INTEGER at hsafe ⊢
    omega

/-! ## The URI prefix -/

theorem prefixBody_append_zeros (b : List UInt8) (k : ℕ) : prefixBody (b ++ List.replicate k 0) = prefixBody b := by
  unfold prefixBody
  induction b with
  | nil =>
    cases k with
    | zero => rfl
    | succ k => rfl
  | cons x rest ih =>
    rw [List.cons_append, List.takeWhile_cons, List.takeWhile_cons, ih]

theorem padPrefix_ok {out : List UInt8} (h : padPrefix b = .ok out) :
    out.length = 256 ∧ prefixBody b = prefixBody out := by
  rw [padPrefix, ite_error_ok_iff] at h
  obtain ⟨hshort, h⟩ := h
  cases h
  refine ⟨?_, (prefixBody_append_zeros _ _).symm⟩
  rw [List.length_append, List.length_replicate]
  omega

theorem prefixBytes_ok (h : prefixBytes v = .ok b) : b.length = 256 ∧ textOf v = some (prefixBody b) := by
  unfold prefixBytes at h
  split at h
  · obtain ⟨hlength, hbody⟩ := padPrefix_ok h
    exact ⟨hlength, congrArg some hbody⟩
  · rename_i s
    rw [ite_error_ok_iff] at h
    obtain ⟨-, h⟩ := h
    rw [textOf]
    by_cases hhex : isHex512 (chars s) = true
    · rw [if_pos hhex, ite_error_ok_iff] at h
      obtain ⟨hlength, hbytes⟩ := readFixed_ok h.2
      rw [if_pos hhex, Option.some.inj hbytes]
      exact ⟨hlength, rfl⟩
    · rw [if_neg hhex] at h
      obtain ⟨hlength, hbody⟩ := padPrefix_ok h
      rw [if_neg hhex, hbody]
      exact ⟨hlength, rfl⟩
  · cases h

theorem eq_prefixBody_append (h : uriPrefixOk b = true) :
    b = prefixBody b ++ List.replicate (b.length - (prefixBody b).length) 0 := by
  rw [uriPrefixOk, Bool.and_eq_true, Bool.and_eq_true, List.all_eq_true] at h
  have hbody : prefixBody b = b.take (prefixBody b).length :=
    List.prefix_iff_eq_take.mp (List.takeWhile_prefix _)
  have hpad : b.drop (prefixBody b).length = List.replicate (b.length - (prefixBody b).length) 0 := by
    rw [List.eq_replicate_iff, List.length_drop]
    exact ⟨rfl, fun x hx => by simpa using h.1.1 x hx⟩
  calc b = b.take (prefixBody b).length ++ b.drop (prefixBody b).length := (List.take_append_drop _ b).symm
    _ = prefixBody b ++ List.replicate (b.length - (prefixBody b).length) 0 := by rw [← hbody, hpad]

theorem eq_of_prefixBody (ha : uriPrefixOk a = true) (hb : uriPrefixOk b = true) (hlength : a.length = b.length)
    (h : prefixBody a = prefixBody b) : a = b := by
  rw [eq_prefixBody_append ha, eq_prefixBody_append hb, h, hlength]

theorem readUriPrefix_ok (h : readUriPrefix v = .ok b) : prefixBytes v = .ok b ∧ uriPrefixOk b = true := by
  obtain ⟨bytes, hbytes, h⟩ := bind_iff.mp h
  rw [checkPrefix] at h
  split_ifs at h with hok
  cases h
  exact ⟨hbytes, hok⟩

theorem readUriPrefix_bytes (hlength : b.length = 256) (hok : uriPrefixOk b = true) :
    readUriPrefix (.bytes b) = .ok b := by
  have hpad : prefixBytes (.bytes b) = .ok b := by
    rw [prefixBytes, padPrefix, if_neg (by omega), hlength, Nat.sub_self, List.replicate_zero, List.append_nil]
  rw [readUriPrefix, hpad, ok_bind, checkPrefix, if_pos hok]

/-! ## One field -/

/-- A field whose width is the one its reader writes. -/
def Sized (name : String) (size : ℕ) : Prop :=
  (name = "blockHash" → size = 32) ∧ (name = "uriPrefix" → size = 256) ∧ ∀ bits ∈ uintBits name, bits = 8 * size

instance (name : String) (size : ℕ) : Decidable (Sized name size) := by
  unfold Sized
  infer_instance

/-- What the codec asks of a field's bytes, on both sides. -/
def Accepted (name : String) (bytes : List UInt8) : Prop :=
  (name = "blockHash" → isZero bytes = false) ∧ (name = "uriPrefix" → uriPrefixOk bytes = true)
    ∧ (name = "alg" → ofBigEndian bytes ∈ LAUNCH_ALGS)

theorem readUintField_ok (h : readUintField name v size (8 * size) = .ok bytes) :
    bytes.length = size ∧ numberOf v = some (ofBigEndian bytes : ℤ)
      ∧ (name = "alg" → ofBigEndian bytes ∈ LAUNCH_ALGS) := by
  obtain ⟨n, hn, h⟩ := bind_iff.mp h
  rw [guarded_iff] at h
  obtain ⟨halg, h⟩ := h
  cases h
  obtain ⟨hlt, hnumber⟩ := readUint_ok hn
  have hback : ofBigEndian (bigEndian size n) = n := by
    refine ofBigEndian_bigEndian ?_
    rw [show 256 = 2 ^ 8 from rfl, ← Nat.pow_mul]
    exact hlt
  rw [hback]
  exact ⟨length_bigEndian size n, hnumber, fun hname => not_not.mp fun hnot => halg ⟨hname, hnot⟩⟩

/-- **WHAT AN ACCEPTED VALUE IS**: bytes of the field's width that pass the
    codec's tests and stand for the same as the value. -/
theorem readField_ok (hsized : Sized name size) (h : readField name v size = .ok bytes) :
    bytes.length = size ∧ Accepted name bytes ∧ meaning name v = meaning name (.bytes bytes) := by
  obtain ⟨hhash, hwide, hbits⟩ := hsized
  unfold readField at h
  split_ifs at h with h1 h2
  · obtain ⟨hread, hzero⟩ := readBlockHash_ok h
    obtain ⟨hlength, hbytes⟩ := readFixed_ok hread
    subst h1
    refine ⟨hlength.trans (hhash rfl).symm,
      ⟨fun _ => hzero, fun h => absurd h (by decide), fun h => absurd h (by decide)⟩, ?_⟩
    show (bytesOf v).map Meaning.bytes = some (.bytes bytes)
    rw [hbytes]
    rfl
  · obtain ⟨hread, hok⟩ := readUriPrefix_ok h
    obtain ⟨hlength, htext⟩ := prefixBytes_ok hread
    subst h2
    refine ⟨hlength.trans (hwide rfl).symm, ⟨fun h => absurd h h1, fun _ => hok, fun h => absurd h (by decide)⟩, ?_⟩
    show (textOf v).map Meaning.text = some (.text (prefixBody bytes))
    rw [htext]
    rfl
  · cases hname : uintBits name with
    | some bits =>
      rw [hname] at h
      obtain rfl := hbits bits hname
      obtain ⟨hlength, hnumber, halg⟩ := readUintField_ok h
      refine ⟨hlength, ⟨fun h => absurd h h1, fun h => absurd h h2, halg⟩, ?_⟩
      rw [meaning, meaning, if_neg h2, if_neg h2, hname, hnumber]
      rfl
    | none =>
      rw [hname] at h
      obtain ⟨hlength, hbytes⟩ := readFixed_ok h
      refine ⟨hlength, ⟨fun h => absurd h h1, fun h => absurd h h2, ?_⟩, ?_⟩
      · rintro rfl
        cases hname
      · rw [meaning, meaning, if_neg h2, if_neg h2, hname, hbytes]
        rfl

/-- **BACK AGAIN**: what the decoder hands out for accepted bytes is read back to them. -/
theorem readField_fieldValue (hsized : Sized name size) (hlength : bytes.length = size)
    (haccepted : Accepted name bytes) : readField name (fieldValue name size bytes) size = .ok bytes := by
  obtain ⟨hhash, hwide, hbits⟩ := hsized
  obtain ⟨hzero, huri, halg⟩ := haccepted
  unfold readField
  split_ifs with h1 h2
  · subst h1
    exact readBlockHash_bytes (hlength.trans (hhash rfl)) (hzero rfl)
  · subst h2
    exact readUriPrefix_bytes (hlength.trans (hwide rfl)) (huri rfl)
  · unfold fieldValue
    cases hname : uintBits name with
    | none => exact readFixed_bytes hlength
    | some bits =>
      obtain rfl := hbits bits hname
      have hlt : ofBigEndian bytes < 2 ^ (8 * size) := ofBigEndian_lt_bits hlength
      have hread : readUint (if size ≤ 4 then .number (.int (ofBigEndian bytes)) else .bigint
        (ofBigEndian bytes)) (8 * size)
          = .ok (ofBigEndian bytes) := by
        split_ifs with hsmall
        · refine readUint_number hlt ?_
          have hpow : 2 ^ (8 * size) ≤ 2 ^ 32 := Nat.pow_le_pow_right (by decide) (by omega)
          unfold MAX_SAFE_INTEGER
          omega
        · exact readUint_bigint hlt
      have halg' : ¬ (name = "alg" ∧ ofBigEndian bytes ∉ LAUNCH_ALGS) := fun h => h.2 (halg h.1)
      show readUintField name (ite _ _ _) size (8 * size) = .ok bytes
      rw [if_pos (show (some (8 * size)).isSome = true from rfl), readUintField, hread, ok_bind, guarded_iff]
      refine ⟨halg', ?_⟩
      rw [← hlength, bigEndian_ofBigEndian]

theorem eq_of_meaning (ha : Accepted name a) (hb : Accepted name b) (hlength : a.length = b.length)
    (h : meaning name (.bytes a) = meaning name (.bytes b)) : a = b := by
  unfold meaning at h
  split_ifs at h with h1 h2
  · exact eq_of_prefixBody (ha.2.1 h1) (hb.2.1 h1) hlength (Meaning.text.inj (Option.some.inj h))
  · have hvalue : ofBigEndian a = ofBigEndian b := Int.ofNat.inj (Meaning.number.inj (Option.some.inj h))
    rw [← bigEndian_ofBigEndian a, ← bigEndian_ofBigEndian b, hlength, hvalue]
  · exact Meaning.bytes.inj (Option.some.inj h)

end LineField
