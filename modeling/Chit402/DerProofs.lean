import Chit402.EcdsaBytesProofs

/-! # DER signatures

    `derToRaw` takes a signature apart by offsets: a sequence of two
    integers, with lengths and integers in their shortest form.  The rules
    of DER are stated without a reader, as relations between a number and
    its bytes, and each reader is shown to accept what they allow. -/

namespace Der

open EcdsaBytes ExceptFlow FixedRecord Solidity

inductive DerError where
  /-- `der_invalid` -/
  | derInvalid
  /-- `bad_scalar` -/
  | scalarOverflow
deriving DecidableEq

/-! ## The readers -/

/-- A definite length and the offset behind it. -/
def readLength (buf : List UInt8) (offset : ℕ) : Except DerError (ℕ × ℕ) :=
  match buf[offset]? with
  | none => .error .derInvalid
  | some first =>
    if first &&& 0x80 = 0 then .ok (first.toNat, offset + 1)
    else do
      let count := (first &&& 0x7f).toNat
      revertIf (count = 0 ∨ 2 < count) .derInvalid
      revertIf (buf.length < offset + 1 + count) .derInvalid
      revertIf (buf[offset + 1]? = some 0x00) .derInvalid
      let length := ofBigEndian (slice buf (offset + 1) count)
      revertIf (length < 0x80) .derInvalid
      .ok (length, offset + 1 + count)

/-- The loop that skips zeros and stops at the last byte. -/
def skipZeros : List UInt8 → List UInt8
  | 0x00 :: b :: rest => skipZeros (b :: rest)
  | bytes => bytes

structure Scalar where
  out : List UInt8
  value : ℕ
  next : ℕ

def scalarBytes (value length : ℕ) : Except DerError (List UInt8) :=
  match bigToBytes value length with
  | some bytes => .ok bytes
  | none => .error .scalarOverflow

def readScalar (buf : List UInt8) (offset stop order : ℕ) : Except DerError Scalar := do
  revertIf (stop ≤ offset ∨ buf[offset]? ≠ some 0x02) .derInvalid
  let (length, start) ← readLength buf (offset + 1)
  revertIf (length < 1) .derInvalid
  let last := start + length
  revertIf (stop < last) .derInvalid
  revertIf (buf.getD start 0 &&& 0x80 ≠ 0) .derInvalid
  revertIf (buf.getD start 0 = 0x00 ∧ (length = 1 ∨ buf.getD (start + 1) 0 &&& 0x80 = 0)) .derInvalid
  revertIf (32 < (skipZeros (slice buf start length)).length) .derInvalid
  let value := bytesToBig (slice buf start length)
  revertIf (value = 0 ∨ order ≤ value) .derInvalid
  let out ← scalarBytes value 32
  .ok ⟨out, value, last⟩

def derToRaw (der : List UInt8) (order : ℕ) : Except DerError (List UInt8) := do
  revertIf (der.length < 8 ∨ der[0]? ≠ some 0x30) .derInvalid
  let (length, next) ← readLength der 1
  revertIf (next + length ≠ der.length) .derInvalid
  let r ← readScalar der next der.length order
  let s ← readScalar der r.next der.length order
  revertIf (s.next ≠ der.length) .derInvalid
  .ok (r.out ++ s.out)

def lowS (sig : List UInt8) (order : ℕ) : Except DerError (List UInt8) := do
  revertIf (sig.length ≠ 64) .derInvalid
  let s := bytesToBig (sig.drop 32)
  revertIf (s = 0 ∨ order ≤ s) .derInvalid
  let half := order / 2
  if s ≤ half then .ok sig
  else
    let low ← scalarBytes (order - s) 32
    .ok (setAt sig 32 low)

def normalizeDer (der : List UInt8) (order : ℕ) : Except DerError (List UInt8) := do
  let raw ← derToRaw der order
  lowS raw order

/-! ## The rules -/

/-- A definite length in its shortest form. -/
inductive DerLength : ℕ → List UInt8 → Prop
  | short {n : ℕ} (h : n < 0x80) : DerLength n [UInt8.ofNat n]
  | long {octets : List UInt8} (hne : octets ≠ []) (hsize : octets.length < 0x7f) (hmin : NoLeadingZero octets)
      (hlarge : 0x80 ≤ ofBigEndian octets) :
      DerLength (ofBigEndian octets) (UInt8.ofNat (0x80 + octets.length) :: octets)

/-- Tag, length and contents. -/
inductive Tlv (tag : UInt8) (contents : List UInt8) : List UInt8 → Prop
  | intro {length : List UInt8} (h : DerLength contents.length length) : Tlv tag contents (tag :: (length ++ contents))

/-- The contents of an integer that is not negative: its sign bit is clear, and its first nine bits are not all zero. -/
structure DerInteger (value : ℕ) (contents : List UInt8) : Prop where
  nonempty : contents ≠ []
  positive : ∀ b ∈ contents.head?, b.toNat < 0x80
  shortest : ∀ b rest, contents = 0x00 :: b :: rest → 0x80 ≤ b.toNat
  value_eq : ofBigEndian contents = value

/-- `SEQUENCE { INTEGER r, INTEGER s }` -/
def IsSignature (r s : ℕ) (der : List UInt8) : Prop :=
  ∃ rContents sContents rBytes sBytes, DerInteger r rContents ∧ DerInteger s sContents ∧ Tlv 0x02 rContents rBytes
    ∧ Tlv 0x02 sContents sBytes ∧ Tlv 0x30 (rBytes ++ sBytes) der

/-! ## Bits of a byte -/

theorem signBit_clear_iff (b : UInt8) : b &&& 0x80 = 0 ↔ b.toNat < 0x80 := by
  have hall : ∀ k : Fin 256, (UInt8.ofNat k &&& 0x80 = 0 ↔ k.1 < 0x80) := by decide +kernel
  have hb := hall ⟨b.toNat, b.toNat_lt⟩
  rwa [UInt8.ofNat_toNat] at hb

theorem low_bits (b : UInt8) : (b &&& 0x7f).toNat = b.toNat % 0x80 := by
  rw [UInt8.toNat_and, show (0x7f : UInt8).toNat = 2 ^ 7 - 1 from rfl, Nat.and_two_pow_sub_one_eq_mod]

/-! ## Lengths -/

variable {buf bytes after : List UInt8} {offset : ℕ}

variable {contents der out rest sig : List UInt8} {b tag : UInt8} {length n next order r s value : ℕ}

theorem DerLength.ne_nil (h : DerLength n bytes) : bytes ≠ [] := by
  cases h <;> simp

/-- The reader takes a shortest length of at most two bytes behind the first. -/
theorem readLength_ok_iff : readLength buf offset = .ok (length, next) ↔
    ∃ bytes after, DerLength length bytes ∧ bytes.length ≤ 3 ∧ buf.drop offset = bytes ++ after
      ∧ next = offset + bytes.length := by
  constructor
  · intro h
    unfold readLength at h
    split at h
    · cases h
    · next first hfirst =>
      obtain ⟨rest, hrest⟩ : ∃ rest, buf.drop offset = first :: rest := by
        refine ⟨buf.drop (offset + 1), ?_⟩
        obtain ⟨hlt, rfl⟩ := List.getElem?_eq_some_iff.1 hfirst
        exact List.drop_eq_getElem_cons hlt
      -- one byte below 0x80, or a count and that many bytes
      split_ifs at h with hshort
      · cases h
        refine ⟨[first], rest, ?_, by simp, hrest, rfl⟩
        have hlen := DerLength.short ((signBit_clear_iff first).1 hshort)
        rwa [UInt8.ofNat_toNat] at hlen
      · obtain ⟨_, hcount, h⟩ := bind_iff.1 h
        obtain ⟨_, hfit, h⟩ := bind_iff.1 h
        obtain ⟨_, hmin, h⟩ := bind_iff.1 h
        obtain ⟨_, hlarge, h⟩ := bind_iff.1 h
        rw [revertIf_ok_iff] at hcount hfit hmin hlarge
        cases h
        have hfirst' := first.toNat_lt
        have hhigh : 0x80 ≤ first.toNat := Nat.le_of_not_lt fun hlt => hshort ((signBit_clear_iff first).2 hlt)
        have hlow := low_bits first
        have hsize : (slice buf (offset + 1) (first &&& 0x7f).toNat).length = (first &&& 0x7f).toNat :=
          length_slice (by omega)
        have hfirstByte : UInt8.ofNat (0x80 + (slice buf (offset + 1) (first &&& 0x7f).toNat).length) = first :=
          ofNat_of_toNat (by omega)
        refine ⟨first :: slice buf (offset + 1) (first &&& 0x7f).toNat,
          buf.drop (offset + 1 + (first &&& 0x7f).toNat), ?_, ?_, ?_, ?_⟩
        · have hlen : DerLength _ (UInt8.ofNat _ :: slice buf (offset + 1) (first &&& 0x7f).toNat) :=
            DerLength.long ?_ ?_ ?_ (Nat.le_of_not_lt hlarge)
          · rwa [hfirstByte] at hlen
          · exact List.ne_nil_of_length_pos (by omega)
          · omega
          · intro hzero
            rw [head_slice _ (by omega)] at hzero
            exact hmin hzero
        · rw [List.length_cons]
          omega
        · rw [hrest, List.cons_append, slice, ← List.drop_drop (i := (first &&& 0x7f).toNat), List.take_append_drop,
            drop_succ_of_drop hrest]
        · rw [List.length_cons]
          omega
  · rintro ⟨bytes, after, hlen, hsize, hdrop, rfl⟩
    unfold readLength
    cases hlen with
    | short h =>
      have hbyte : (UInt8.ofNat length).toNat = length := UInt8.toNat_ofNat_of_lt' (show _ < 256 by omega)
      rw [getElem?_of_drop hdrop]
      dsimp only
      rw [if_pos ((signBit_clear_iff _).2 (by omega)), hbyte]
      rfl
    | @long octets hne hlt hmin hlarge =>
      have hpos := List.length_pos_iff.2 hne
      have hbyte : (UInt8.ofNat (0x80 + octets.length)).toNat = 0x80 + octets.length :=
        UInt8.toNat_ofNat_of_lt' (show _ < 256 by omega)
      have hcount : (UInt8.ofNat (0x80 + octets.length) &&& 0x7f).toNat = octets.length := by
        rw [low_bits]
        omega
      have hbehind : buf.drop (offset + 1) = octets ++ after := drop_succ_of_drop hdrop
      have hfit := length_of_drop hbehind hne
      rw [List.length_cons] at hsize
      rw [getElem?_of_drop hdrop]
      dsimp only
      rw [if_neg (fun h => absurd ((signBit_clear_iff _).1 h) (by omega)), hcount, slice_of_drop hbehind,
        revertIf_of_not _ (by omega), guarded_of_not (by omega), ok_bind, revertIf_of_not, revertIf_of_not _ (by omega)]
      · rw [ok_bind, ok_bind, List.length_cons]
        congr 2
        omega
      · rw [← head_slice buf hpos, slice_of_drop hbehind]
        exact hmin

theorem DerLength.eq_short (h : DerLength n bytes) (hn : n < 0x80) : bytes = [UInt8.ofNat n] := by
  cases h with
  | short h => rfl
  | long hne hsize hmin hlarge => omega

theorem DerLength.length_eq_one (h : DerLength n bytes) (hn : n < 0x80) : bytes.length = 1 := by
  rw [h.eq_short hn]
  rfl

/-! ## Integers -/

/-- The contents DER prescribes: a zero byte only where the sign bit would be set. -/
def derContents (value : ℕ) : List UInt8 :=
  match bigBytes value with
  | [] => [0x00]
  | b :: rest => if 0x80 ≤ b.toNat then 0x00 :: b :: rest else b :: rest

theorem ofBigEndian_zero_cons (bytes : List UInt8) : ofBigEndian (0x00 :: bytes) = ofBigEndian bytes := rfl

theorem noLeadingZero_cons (h : b ≠ 0) : NoLeadingZero (b :: rest) :=
  fun hzero => h (Option.some.inj hzero)

theorem ne_zero_of_le (h : 0x80 ≤ b.toNat) : b ≠ 0 := by
  rintro rfl
  exact absurd h (by decide)

/-- The rule leaves one choice of contents. -/
theorem derInteger_iff : DerInteger value contents ↔ contents = derContents value := by
  constructor
  · rintro ⟨hne, hpositive, hshortest, rfl⟩
    obtain ⟨first, rest, rfl⟩ := List.exists_cons_of_ne_nil hne
    have hfirst : first.toNat < 0x80 := hpositive first rfl
    unfold derContents
    by_cases hzero : first = 0x00
    · subst hzero
      cases rest with
      | nil => rw [show ofBigEndian [0x00] = 0 from rfl, bigBytes_zero]
      | cons b rest =>
        have hb : 0x80 ≤ b.toNat := hshortest b rest rfl
        rw [ofBigEndian_zero_cons, bigBytes_ofBigEndian (noLeadingZero_cons (ne_zero_of_le hb))]
        dsimp only
        rw [if_pos hb]
    · rw [bigBytes_ofBigEndian (noLeadingZero_cons hzero)]
      dsimp only
      rw [if_neg (by omega)]
  · rintro rfl
    have hvalue := ofBigEndian_bigBytes value
    have hmin := noLeadingZero_bigBytes value
    unfold derContents
    split
    · next hnil =>
      rw [hnil] at hvalue
      refine ⟨by simp, ?_, ?_, hvalue⟩
      · rintro b ⟨⟩
        decide
      · rintro b rest ⟨⟩
    · next first rest hcons =>
      rw [hcons] at hvalue hmin
      split_ifs with hsign
      · refine ⟨by simp, ?_, ?_, hvalue⟩
        · rintro b ⟨⟩
          decide
        · rintro b rest ⟨⟩
          exact hsign
      · refine ⟨by simp, ?_, ?_, hvalue⟩
        · rintro b ⟨⟩
          omega
        · rintro b rest ⟨⟩
          exact (hmin rfl).elim

theorem skipZeros_of_noLeadingZero {bytes : List UInt8} (h : NoLeadingZero bytes) : skipZeros bytes = bytes := by
  unfold skipZeros
  split
  · exact (h rfl).elim
  · rfl

theorem skipZeros_derContents (h : 0 < value) : skipZeros (derContents value) = bigBytes value := by
  have hmin := noLeadingZero_bigBytes value
  unfold derContents
  split
  · next hnil => exact (bigBytes_ne_nil h hnil).elim
  · next first rest hcons =>
    rw [hcons] at hmin
    split_ifs
    · rw [skipZeros, skipZeros_of_noLeadingZero hmin, hcons]
    · rw [skipZeros_of_noLeadingZero hmin, hcons]

theorem length_derContents (h : value < 256 ^ 32) :
    1 ≤ (derContents value).length ∧ (derContents value).length ≤ 33 := by
  have hlen := length_bigBytes_le h
  unfold derContents
  split
  · decide
  · next first rest hcons =>
    rw [hcons, List.length_cons] at hlen
    split_ifs
    · rw [List.length_cons, List.length_cons]
      omega
    · rw [List.length_cons]
      omega

theorem getD_of_drop (h : buf.drop offset = b :: rest) : buf.getD offset 0 = b := by
  rw [List.getD_eq_getElem?_getD, getElem?_of_drop h, Option.getD_some]

/-- The checks on the first two bytes are the rule, for a value that is not zero. -/
theorem signChecks_iff (h : buf.drop offset = contents ++ after) (hpos : 0 < ofBigEndian contents) :
    (buf.getD offset 0 &&& 0x80 = 0
      ∧ ¬ (buf.getD offset 0 = 0x00 ∧ (contents.length = 1 ∨ buf.getD (offset + 1) 0 &&& 0x80 = 0)))
      ↔ DerInteger (ofBigEndian contents) contents := by
  rw [signBit_clear_iff, signBit_clear_iff]
  match contents, h with
  | [], _ => exact absurd hpos (by decide)
  | [first], h =>
    have hfirst : first ≠ 0 := by
      rintro rfl
      exact absurd hpos (by decide)
    rw [getD_of_drop h]
    constructor
    · rintro ⟨hsign, -⟩
      exact ⟨by simp, fun b hb => Option.some.inj hb ▸ hsign, nofun, rfl⟩
    · intro hint
      exact ⟨hint.positive first rfl, fun hzero => hfirst hzero.1⟩
  | first :: second :: rest, h =>
    rw [getD_of_drop h, getD_of_drop (drop_succ_of_drop h)]
    constructor
    · rintro ⟨hsign, hzero⟩
      refine ⟨by simp, fun b hb => Option.some.inj hb ▸ hsign, ?_, rfl⟩
      rintro b rest ⟨⟩
      by_contra hlow
      exact hzero ⟨rfl, Or.inr (by omega)⟩
    · intro hint
      refine ⟨hint.positive first rfl, ?_⟩
      rintro ⟨rfl, hlen | hlow⟩
      · simp at hlen
      · have hhigh := hint.shortest second rest rfl
        omega

/-! ## Scalars -/

theorem Tlv.length_eq (h : Tlv tag contents bytes) (hlen : contents.length < 0x80) :
    bytes.length = contents.length + 2 := by
  obtain ⟨hlength⟩ := h
  rw [List.length_cons, List.length_append, hlength.length_eq_one hlen]
  omega

theorem scalarBytes_ok_iff :
    scalarBytes value length = .ok out ↔ value < 256 ^ length ∧ out = bigEndian length value := by
  unfold scalarBytes bigToBytes
  split_ifs with h
  · exact ⟨fun hok => ⟨h, (Except.ok.inj hok).symm⟩, fun hout => congrArg Except.ok hout.2.symm⟩
  · exact ⟨nofun, fun hout => (h hout.1).elim⟩

/-- **SCALAR**: the reader takes the encoding of an integer from 1 to the order, and gives its 32 bytes. -/
theorem readScalar_ok_iff : readScalar buf offset buf.length order = .ok ⟨out, value, next⟩ ↔
      ∃ bytes after, Tlv 0x02 (derContents value) bytes ∧ 0 < value ∧ value < order ∧ value < 256 ^ 32
        ∧ buf.drop offset = bytes ++ after ∧ next = offset + bytes.length ∧ out = bigEndian 32 value := by
  unfold readScalar
  simp only [bind_iff, revertIf_ok_iff, scalarBytes_ok_iff]
  constructor
  · rintro ⟨_, htag, ⟨length, start⟩, hlength, hrest⟩
    dsimp only at hrest
    obtain ⟨_, hone, _, hfit, _, hsign, _, hzero, _, hsize, _, hrange, bytes, hbytes, hscalar⟩ := hrest
    obtain ⟨rfl, rfl, rfl⟩ := Scalar.mk.inj (Except.ok.inj hscalar)
    have hlt := hbytes.1
    have hout := hbytes.2
    obtain ⟨lengthBytes, after, hlen, -, hdrop, rfl⟩ := readLength_ok_iff.1 hlength
    obtain ⟨htag, hoffset⟩ : buf[offset]? = some 0x02 ∧ offset < buf.length := by
      constructor
      · by_contra hne
        exact htag (Or.inr hne)
      · omega
    have hstart : buf.drop (offset + 1 + lengthBytes.length) = after := drop_add_of_drop hdrop
    -- what follows the length is the contents and the rest
    obtain ⟨contents, rest, hcontents, rfl, rfl⟩ :
      ∃ contents rest, slice buf (offset + 1 + lengthBytes.length) length = contents
        ∧ contents.length = length ∧ after = contents ++ rest :=
      ⟨_, after.drop length, rfl, length_slice (by omega), by rw [slice, hstart, List.take_append_drop]⟩
    rw [hcontents] at hrange hlt hout ⊢
    have hpos : 0 < ofBigEndian contents := Nat.pos_of_ne_zero fun h => hrange (Or.inl h)
    have hint := derInteger_iff.1 ((signChecks_iff hstart hpos).1 ⟨not_not.1 hsign, hzero⟩)
    have hfirstByte : buf.drop offset = 0x02 :: buf.drop (offset + 1) := by
      obtain ⟨hlt, hget⟩ := List.getElem?_eq_some_iff.1 htag
      rw [List.drop_eq_getElem_cons hlt, hget]
    refine ⟨0x02 :: (lengthBytes ++ contents), rest, ?_, hpos, Nat.lt_of_not_le fun h =>
      hrange (Or.inr h), hlt, ?_, ?_, hout⟩
    · rw [← hint]
      exact Tlv.intro hlen
    · rw [hfirstByte, hdrop, List.cons_append, List.append_assoc]
    · rw [List.length_cons, List.length_append]
      omega
  · rintro ⟨bytes, after, htlv, hpos, horder, hlt, hdrop, rfl, hout⟩
    obtain @⟨lengthBytes, hlen⟩ := htlv
    obtain ⟨hone, hmax⟩ := length_derContents hlt
    have hshort := hlen.length_eq_one (by omega)
    have hint : DerInteger value (derContents value) := derInteger_iff.2 rfl
    have hfit := length_of_drop hdrop (by simp)
    rw [List.length_cons, List.length_append] at hfit
    have hbehind : buf.drop (offset + 1) = lengthBytes ++ (derContents value ++ after) := by
      rw [drop_succ_of_drop hdrop]
      exact List.append_assoc _ _ _
    have hstart : buf.drop (offset + 1 + lengthBytes.length) = derContents value ++ after := drop_add_of_drop hbehind
    have hslice : slice buf (offset + 1 + lengthBytes.length) (derContents value).length
      = derContents value := slice_of_drop hstart
    have hvalue : 0 < ofBigEndian (derContents value) := by rwa [hint.value_eq]
    obtain ⟨hsign, hzero⟩ := (signChecks_iff hstart hvalue).2 ⟨hint.nonempty, hint.positive, hint.shortest, rfl⟩
    have htag : buf[offset]? = some 0x02 := getElem?_of_drop hdrop
    refine ⟨(), ?_, ((derContents value).length, offset + 1 + lengthBytes.length),
      readLength_ok_iff.2 ⟨lengthBytes, _, hlen, by omega, hbehind, rfl⟩, ?_⟩
    · rintro (hstop | hother)
      · omega
      · exact hother htag
    · dsimp only
      rw [hslice, skipZeros_derContents hpos, show bytesToBig (derContents value) = value from hint.value_eq]
      have hsize := length_bigBytes_le hlt
      refine ⟨(), by omega, (), by omega, (), not_not.2 hsign, (), hzero, (), by omega, (), by omega, _, ⟨hlt, rfl⟩, ?_⟩
      rw [hout, List.length_cons, List.length_append]
      congr 2
      omega

/-! ## Signatures -/

/-- From 1 to the order. -/
def InRange (order k : ℕ) : Prop := 1 ≤ k ∧ k < order

/-- The result for two scalars. -/
def rawSignature (r s : ℕ) : List UInt8 := bigEndian 32 r ++ bigEndian 32 s

theorem isSignature_iff : IsSignature r s der ↔
    ∃ rBytes sBytes, Tlv 0x02 (derContents r) rBytes ∧ Tlv 0x02 (derContents s) sBytes
      ∧ Tlv 0x30 (rBytes ++ sBytes) der := by
  constructor
  · rintro ⟨rContents, sContents, rBytes, sBytes, hr, hs, hrest⟩
    rw [derInteger_iff] at hr hs
    rw [hr, hs] at hrest
    exact ⟨rBytes, sBytes, hrest⟩
  · rintro ⟨rBytes, sBytes, hrest⟩
    exact ⟨_, _, rBytes, sBytes, derInteger_iff.2 rfl, derInteger_iff.2 rfl, hrest⟩

/-- **SIGNATURE**: what is accepted is the encoding of two scalars, and the result is their bytes. -/
theorem derToRaw_ok_iff (horder : order < 2 ^ 256) :
    derToRaw der order = .ok out ↔ ∃ r s, InRange order r ∧ InRange order s ∧ IsSignature r s der
      ∧ out = rawSignature r s := by
  have hwidth : (2 : ℕ) ^ 256 = 256 ^ 32 := by decide
  unfold derToRaw
  simp only [bind_iff, revertIf_ok_iff, isSignature_iff]
  constructor
  · rintro ⟨_, hhead, ⟨length, next⟩, hlength, hrest⟩
    dsimp only at hrest
    obtain ⟨_, hend, ⟨rOut, r, rNext⟩, hr, ⟨sOut, s, sNext⟩, hs, _, hlast, hout⟩ := hrest
    dsimp only at hs hlast hout
    obtain ⟨lengthBytes, after, hlen, -, hdrop, rfl⟩ := readLength_ok_iff.1 hlength
    obtain ⟨rBytes, rAfter, hrTlv, hrPos, hrLt, -, hrDrop, rfl, hrOut⟩ := readScalar_ok_iff.1 hr
    obtain ⟨sBytes, sAfter, hsTlv, hsPos, hsLt, -, hsDrop, rfl, hsOut⟩ := readScalar_ok_iff.1 hs
    have hbehind : der.drop (1 + lengthBytes.length) = after := drop_add_of_drop hdrop
    have hrBehind : der.drop (1 + lengthBytes.length + rBytes.length) = rAfter := drop_add_of_drop hrDrop
    have hsBehind : der.drop (1 + lengthBytes.length + rBytes.length + sBytes.length) = sAfter :=
      drop_add_of_drop hsDrop
    -- nothing follows the second integer
    obtain rfl : sAfter = [] := by
      rw [← hsBehind]
      exact List.drop_of_length_le (by omega)
    rw [hbehind] at hrDrop
    rw [hrBehind, List.append_nil] at hsDrop
    rw [hsDrop] at hrDrop
    subst hrDrop
    have hhead : der[0]? = some 0x30 := by
      by_contra hne
      exact hhead (Or.inr hne)
    have hwhole : der = 0x30 :: der.drop 1 := by
      obtain ⟨hlt, hget⟩ := List.getElem?_eq_some_iff.1 hhead
      calc der = der.drop 0 := rfl
        _ = 0x30 :: der.drop 1 := by rw [List.drop_eq_getElem_cons hlt, hget]
    have hcount : (rBytes ++ sBytes).length = length := by
      have hsize := length_of_drop hdrop hlen.ne_nil
      omega
    refine ⟨r, s, ⟨hrPos, hrLt⟩, ⟨hsPos, hsLt⟩, ⟨rBytes, sBytes, hrTlv, hsTlv, ?_⟩, ?_⟩
    · rw [hwhole, hdrop]
      exact Tlv.intro (hcount ▸ hlen)
    · rw [← Except.ok.inj hout, hrOut, hsOut, rawSignature]
  · rintro ⟨r, s, hr, hs, ⟨rBytes, sBytes, hrTlv, hsTlv, hder⟩, hout⟩
    obtain @⟨lengthBytes, hlen⟩ := hder
    obtain ⟨hrOne, hrMax⟩ := length_derContents (show r < 256 ^ 32 from hwidth ▸ Nat.lt_trans hr.2 horder)
    obtain ⟨hsOne, hsMax⟩ := length_derContents (show s < 256 ^ 32 from hwidth ▸ Nat.lt_trans hs.2 horder)
    have hrSize := hrTlv.length_eq (by omega)
    have hsSize := hsTlv.length_eq (by omega)
    have hcount : (rBytes ++ sBytes).length = rBytes.length + sBytes.length := List.length_append
    have hone := hlen.length_eq_one (by omega)
    have hdrop : (0x30 :: (lengthBytes ++ (rBytes ++ sBytes))).drop 1 = lengthBytes ++ (rBytes ++ sBytes) := rfl
    have hrDrop := drop_add_of_drop hdrop
    have hsDrop : (0x30 :: (lengthBytes ++ (rBytes ++ sBytes))).drop
      (1 + lengthBytes.length + rBytes.length) = sBytes ++ [] := by
      rw [List.append_nil]
      exact drop_add_of_drop hrDrop
    have hsize : (0x30 :: (lengthBytes ++ (rBytes ++ sBytes))).length = 1 + lengthBytes.length
      + rBytes.length + sBytes.length := by
      rw [List.length_cons, List.length_append, hcount]
      omega
    refine ⟨(), ?_, ((rBytes ++ sBytes).length, 1 + lengthBytes.length),
      readLength_ok_iff.2 ⟨lengthBytes, rBytes ++ sBytes, hlen, by omega, hdrop, rfl⟩, ?_⟩
    · rintro (hshort | hother)
      · omega
      · exact hother rfl
    · dsimp only
      refine ⟨(), ?_, ⟨_, r, _⟩,
        readScalar_ok_iff.2 ⟨rBytes, sBytes, hrTlv, hr.1, hr.2, hwidth ▸ Nat.lt_trans hr.2 horder,
          hrDrop, rfl, rfl⟩, ⟨_, s, _⟩,
        readScalar_ok_iff.2 ⟨sBytes, [], hsTlv, hs.1, hs.2, hwidth ▸ Nat.lt_trans hs.2 horder,
          hsDrop, rfl, rfl⟩, (), ?_,
        congrArg Except.ok hout.symm⟩
      · rw [hsize, hcount]
        omega
      · exact not_not.2 hsize.symm

/-! ## One encoding -/

theorem tlv_iff (hlen : contents.length < 0x80) :
    Tlv tag contents bytes ↔ bytes = tag :: UInt8.ofNat contents.length :: contents := by
  constructor
  · rintro ⟨h⟩
    rw [h.eq_short hlen]
    rfl
  · rintro rfl
    exact Tlv.intro (DerLength.short hlen)

theorem InRange.lt_width {k : ℕ} (horder : order < 2 ^ 256) (h : InRange order k) : k < 256 ^ 32 := by
  have hwidth : (2 : ℕ) ^ 256 = 256 ^ 32 := by decide
  exact hwidth ▸ Nat.lt_trans h.2 horder

/-- **ONE ENCODING**: DER leaves a pair of scalars no choice. -/
theorem isSignature_existsUnique (horder : order < 2 ^ 256) (hr : InRange order r) (hs : InRange order s) :
    ∃! der, IsSignature r s der := by
  obtain ⟨hrOne, hrMax⟩ := length_derContents (hr.lt_width horder)
  obtain ⟨hsOne, hsMax⟩ := length_derContents (hs.lt_width horder)
  have hscalar : ∀ {k bytes}, (derContents k).length ≤ 33 →
      (Tlv 0x02 (derContents k) bytes ↔ bytes = 0x02 :: UInt8.ofNat (derContents k).length :: derContents k) :=
    fun h => tlv_iff (by omega)
  have hpair : ((0x02 :: UInt8.ofNat (derContents r).length :: derContents r)
      ++ (0x02 :: UInt8.ofNat (derContents s).length :: derContents s)).length < 0x80 := by
    simp only [List.length_append, List.length_cons]
    omega
  simp only [isSignature_iff, hscalar hrMax, hscalar hsMax]
  refine ⟨_, ⟨_, _, rfl, rfl, (tlv_iff hpair).2 rfl⟩, ?_⟩
  rintro der ⟨_, _, rfl, rfl, hder⟩
  exact (tlv_iff hpair).1 hder

/-! ## Low-S -/

theorem rawSignature_inj {r' s' : ℕ} (hr : r < 256 ^ 32) (hs : s < 256 ^ 32) (hr' : r' < 256 ^ 32)
    (hs' : s' < 256 ^ 32) (h : rawSignature r s = rawSignature r' s') : r = r' ∧ s = s' := by
  unfold rawSignature at h
  obtain ⟨hfirst, hsecond⟩ := List.append_inj h (by rw [length_bigEndian, length_bigEndian])
  exact ⟨bigEndian_inj hr hr' hfirst, bigEndian_inj hs hs' hsecond⟩

theorem length_rawSignature (r s : ℕ) : (rawSignature r s).length = 64 := by
  rw [rawSignature, List.length_append, length_bigEndian, length_bigEndian]

theorem drop_rawSignature (r s : ℕ) : (rawSignature r s).drop 32 = bigEndian 32 s := by
  rw [rawSignature, List.drop_left' (length_bigEndian 32 r)]

theorem setAt_second {low : List UInt8} (hsig : sig.length = 64) (hlow : low.length = 32) :
    setAt sig 32 low = sig.take 32 ++ low := by
  rw [setAt, hlow, List.drop_of_length_le (by omega), List.append_nil]

/-- A signature with its second half `s`: it stays when `s` is low, and becomes the other solution when not. -/
theorem lowS_eq (hsig : sig.length = 64) (hrange : InRange order (ofBigEndian (sig.drop 32))) :
    lowS sig order = if ofBigEndian (sig.drop 32) ≤ order / 2 then .ok sig
      else (scalarBytes (order - ofBigEndian (sig.drop 32)) 32).map (setAt sig 32) := by
  obtain ⟨hpos, hlt⟩ := hrange
  unfold lowS
  rw [guarded_of_not (not_not.2 hsig)]
  dsimp only [bytesToBig]
  rw [guarded_of_not (by omega)]
  split_ifs
  · rfl
  · cases scalarBytes (order - ofBigEndian (sig.drop 32)) 32 <;> rfl

theorem lowS_rawSignature (horder : order < 2 ^ 256) (hs : InRange order s) :
    lowS (rawSignature r s) order = .ok (rawSignature r (min s (order - s))) := by
  have hvalue : ofBigEndian ((rawSignature r s).drop 32) = s := by
    rw [drop_rawSignature, ofBigEndian_bigEndian (hs.lt_width horder)]
  rw [lowS_eq (length_rawSignature r s) (hvalue.symm ▸ hs), hvalue]
  have hlt := hs.2
  split_ifs with hlow
  · rw [Nat.min_eq_left (by omega)]
  · have hwidth : order - s < 256 ^ 32 :=
      Nat.lt_of_le_of_lt (Nat.sub_le _ _) ((by decide : (2 : ℕ) ^ 256 = 256 ^ 32) ▸ horder)
    rw [Nat.min_eq_right (by omega), scalarBytes_ok_iff.2 ⟨hwidth, rfl⟩]
    show Except.ok (setAt (rawSignature r s) 32 (bigEndian 32 (order - s))) = Except.ok (rawSignature r (order - s))
    rw [setAt_second (length_rawSignature r s) (length_bigEndian 32 _), rawSignature,
      List.take_left' (length_bigEndian 32 r), rawSignature]

theorem lowS_lowS (h : lowS sig order = .ok out) : lowS out order = .ok out := by
  have hinv := h
  unfold lowS at hinv
  obtain ⟨_, hsig, hinv⟩ := bind_iff.1 hinv
  obtain ⟨_, hrange, -⟩ := bind_iff.1 hinv
  rw [revertIf_ok_iff] at hsig hrange
  have hsig := not_not.1 hsig
  obtain ⟨hpos, hlt⟩ : InRange order (ofBigEndian (sig.drop 32)) :=
    ⟨Nat.pos_of_ne_zero fun h => hrange (Or.inl h), Nat.lt_of_not_le fun h => hrange (Or.inr h)⟩
  rw [lowS_eq hsig ⟨hpos, hlt⟩] at h
  split_ifs at h with hlow
  · cases h
    rw [lowS_eq hsig ⟨hpos, hlt⟩, if_pos hlow]
  · -- the other solution is low
    obtain ⟨low, hscalar, rfl⟩ : ∃ low, scalarBytes (order - ofBigEndian (sig.drop 32)) 32 = .ok low
      ∧ setAt sig 32 low = out := by
      cases hscalar : scalarBytes (order - ofBigEndian (sig.drop 32)) 32 with
      | error e =>
        rw [hscalar] at h
        cases h
      | ok low =>
        rw [hscalar] at h
        exact ⟨low, rfl, Except.ok.inj h⟩
    obtain ⟨hwidth, hlow'⟩ := scalarBytes_ok_iff.1 hscalar
    have hlength : low.length = 32 := by rw [hlow', length_bigEndian]
    have htake : (sig.take 32).length = 32 := by
      rw [List.length_take]
      omega
    have hdrop : ofBigEndian ((setAt sig 32 low).drop 32) = order - ofBigEndian (sig.drop 32) := by
      rw [setAt_second hsig hlength, List.drop_left' htake, hlow', ofBigEndian_bigEndian hwidth]
    have hsize : (setAt sig 32 low).length = 64 := by rw [length_setAt (by omega), hsig]
    rw [lowS_eq hsize (hdrop.symm ▸ ⟨by omega, by omega⟩), hdrop, if_pos (by omega)]

theorem normalizeDer_eq (horder : order < 2 ^ 256) (hr : InRange order r) (hs : InRange order s)
    (h : IsSignature r s der) : normalizeDer der order = .ok (rawSignature r (min s (order - s))) := by
  unfold normalizeDer
  rw [(derToRaw_ok_iff horder).2 ⟨r, s, hr, hs, h, rfl⟩, ok_bind, lowS_rawSignature horder hs]

theorem derToRaw_injective (horder : order < 2 ^ 256) {a b : List UInt8} (ha : derToRaw a order = .ok out)
    (hb : derToRaw b order = .ok out) : a = b := by
  obtain ⟨r, s, hr, hs, hsig, hout⟩ := (derToRaw_ok_iff horder).1 ha
  obtain ⟨r', s', hr', hs', hsig', hout'⟩ := (derToRaw_ok_iff horder).1 hb
  obtain ⟨hrSame, hsSame⟩ := rawSignature_inj (hr.lt_width horder) (hs.lt_width horder)
    (hr'.lt_width horder) (hs'.lt_width horder)
    (hout.symm.trans hout')
  rw [← hrSame, ← hsSame] at hsig'
  exact (isSignature_existsUnique horder hr hs).unique hsig hsig'

/-- **STRICT DER**: acceptance is being the one encoding of two scalars in range, and low-S changes
    the second one alone. -/
theorem strict_der {order : ℕ} (horder : order < 2 ^ 256) : (∀ der out, derToRaw der order = .ok out ↔
      ∃ r s, InRange order r ∧ InRange order s ∧ IsSignature r s der ∧ out = rawSignature r s)
    ∧ (∀ r s, InRange order r → InRange order s → ∃! der, IsSignature r s der)
    ∧ (∀ a b out, derToRaw a order = .ok out → derToRaw b order = .ok out → a = b)
    ∧ (∀ r s der, InRange order r → InRange order s → IsSignature r s der →
      normalizeDer der order = .ok (rawSignature r (min s (order - s))))
    ∧ ∀ sig out, lowS sig order = .ok out → lowS out order = .ok out :=
  ⟨fun _ _ => derToRaw_ok_iff horder, fun _ _ => isSignature_existsUnique horder,
    fun _ _ _ => derToRaw_injective horder,
    fun _ _ _ => normalizeDer_eq horder, fun _ _ => lowS_lowS⟩

/-- The smallest encoding is the size floor: both scalars are one. -/
theorem strict_der_sample : ∃ out, derToRaw [0x30, 6, 0x02, 1, 1, 0x02, 1, 1] (2 ^ 255 + 1)
    = .ok out ∧ out = rawSignature 1 1 := by
  have horder : 2 ^ 255 + 1 < 2 ^ 256 := by decide
  have hone : DerInteger 1 [1] := by
    refine ⟨by simp, ?_, nofun, rfl⟩
    rintro b ⟨⟩
    decide
  have htlv : Tlv 0x02 [1] [0x02, 1, 1] := Tlv.intro (DerLength.short (by decide))
  have hsequence : Tlv 0x30 [0x02, 1, 1, 0x02, 1, 1] [0x30, 6, 0x02, 1, 1, 0x02, 1, 1] :=
    Tlv.intro (DerLength.short (by decide))
  have hrange : InRange (2 ^ 255 + 1) 1 := ⟨Nat.le_refl 1, by decide⟩
  exact ⟨rawSignature 1 1, ((strict_der horder).1 _ _).2
    ⟨1, 1, hrange, hrange, ⟨[1], [1], _, _, hone, hone, htlv, htlv, hsequence⟩, rfl⟩, rfl⟩

end Der
