import Chit402.FixedRecordProofs
import Chit402.LineFieldProofs

/-! # The line codec

    A line is 1,024 bytes: a header of two, a payment half, a content half, a
    signature block, and zero padding.  `encodeLine` writes the fields of a
    caller's object one after the other; `decodeLine` tests a byte string and
    hands out its fields. -/

namespace LineCodec

open ExceptFlow FixedRecord JsValue KeyRegistry LineField Solidity

/-! ## Layout -/

def LINE_BYTES : ℕ := 1024
def HEADER_BYTES : ℕ := 2
def PAYMENT_BYTES : ℕ := 271
def CONTENT_BYTES : ℕ := 465
def SIGMA_BYTES : ℕ := 65
def SALT_BYTES : ℕ := 32
def USED_BYTES : ℕ := HEADER_BYTES + PAYMENT_BYTES + CONTENT_BYTES + SIGMA_BYTES
def PAD_BYTES : ℕ := LINE_BYTES - USED_BYTES

/-- ASCII `c2` -/
def HEADER : List UInt8 := [0x63, 0x32]

def PAYMENT_FIELDS : Fields String := [("chainId", 8), ("blockHash", 32), ("blockNumber", 8), ("blockTime", 8),
  ("txIndex", 4), ("localLogIndex", 2), ("txHash", 32), ("token", 20), ("from", 20), ("to", 20), ("value", 32),
  ("method", 1), ("authorizer", 20), ("nonce", 32), ("saltP", 32)]

def CONTENT_FIELDS : Fields String := [("uuid", 16), ("sellerIdHash", 32), ("sellerKeyId", 32), ("requestMethod", 1),
  ("uriDigest", 32), ("uriPrefix", 256), ("contentDigest", 32), ("responseDigest", 32), ("saltC", 32)]

def SIGMA_FIELDS : Fields String := [("alg", 1), ("sigma", 64)]

def LAYOUT.payment : ℕ := HEADER_BYTES
def LAYOUT.content : ℕ := HEADER_BYTES + PAYMENT_BYTES
def LAYOUT.sigma : ℕ := HEADER_BYTES + PAYMENT_BYTES + CONTENT_BYTES

/-- The bytes of the field `name`; every name asked for is in the table. -/
def fieldSlice (buf : List UInt8) (base : ℕ) (fields : Fields String) (name : String) : List UInt8 :=
  match (slots base fields).find? (fun s => s.name = name) with
  | some s => slice buf s.offset s.size
  | none => []

/-! ## Encoding -/

def knownOnly (input : Obj) (names : List String) : Except Reason Unit :=
  revertIf (¬ ∀ entry ∈ input, entry.1 ∈ names) .unknownField

/-- An object that is neither null nor an array. -/
def objectOf (input : Js) : Except Reason Obj :=
  match asObject input with
  | some o => .ok o
  | none => .error .badType

def writeFields (target : List UInt8) (base : ℕ) (fields : Fields String) (input : Js) :
    Except Reason (List UInt8) := do
  let input ← objectOf input
  knownOnly input (fields.map Prod.fst)
  writeAll (fun name size => readField name (get input name) size) target base fields

/-- A fresh line: the header and zeros. -/
def blankLine : List UInt8 := HEADER ++ List.replicate (LINE_BYTES - HEADER_BYTES) 0

def algByte (line : List UInt8) : ℕ := (line.getD LAYOUT.sigma 0).toNat

def saltsOf (line : List UInt8) : List UInt8 × List UInt8 :=
  (fieldSlice line LAYOUT.payment PAYMENT_FIELDS "saltP", fieldSlice line LAYOUT.content CONTENT_FIELDS "saltC")

def encodeLine (parts : Js) : Except Reason (List UInt8) := do
  let parts ← objectOf parts
  knownOnly parts ["payment", "content", "sigma"]
  let withPayment ← writeFields blankLine LAYOUT.payment PAYMENT_FIELDS (get parts "payment")
  let withContent ← writeFields withPayment LAYOUT.content CONTENT_FIELDS (get parts "content")
  let line ← writeFields withContent LAYOUT.sigma SIGMA_FIELDS (get parts "sigma")
  requireAlg (algByte line)
  checkSalts (saltsOf line).1 (saltsOf line).2
  checkSigma (fieldSlice line LAYOUT.sigma SIGMA_FIELDS "sigma")
  .ok (line.take USED_BYTES ++ List.replicate PAD_BYTES 0)

/-! ## Decoding -/

def readFields (bytes : List UInt8) (base : ℕ) (fields : Fields String) : Obj :=
  (slots base fields).map fun s => (s.name, fieldValue s.name s.size (slice bytes s.offset s.size))

def partsOf (line : List UInt8) : Js := .object [("payment", .object (readFields line LAYOUT.payment PAYMENT_FIELDS)),
  ("content", .object (readFields line LAYOUT.content CONTENT_FIELDS)),
  ("sigma", .object (readFields line LAYOUT.sigma SIGMA_FIELDS))]

def decodeBytes (line : List UInt8) : Except Reason Js := do
  revertIf (line.length ≠ LINE_BYTES) .badLength
  revertIf (line.take HEADER_BYTES ≠ HEADER) .badHeader
  revertIf (¬ (line.drop USED_BYTES).all (· = 0)) .badPadding
  revertIf (isZero (fieldSlice line LAYOUT.payment PAYMENT_FIELDS "blockHash") = true) .missingBlockHash
  checkSalts (saltsOf line).1 (saltsOf line).2
  revertIf (¬ uriPrefixOk (fieldSlice line LAYOUT.content CONTENT_FIELDS "uriPrefix")) .badUri
  requireAlg (algByte line)
  checkSigma (fieldSlice line LAYOUT.sigma SIGMA_FIELDS "sigma")
  .ok (partsOf line)

def decodeLine (value : Js) : Except Reason Js :=
  match value with
  | .bytes line => decodeBytes line
  | _ => .error .badType

/-! ## The layout adds up -/

/-- All fields of a line in their places. -/
def lineSlots : List (Slot String) :=
  slots LAYOUT.payment PAYMENT_FIELDS ++ slots LAYOUT.content CONTENT_FIELDS ++ slots LAYOUT.sigma SIGMA_FIELDS

theorem fields_sized : ∀ f ∈ PAYMENT_FIELDS ++ CONTENT_FIELDS ++ SIGMA_FIELDS, Sized f.1 f.2 := by
  decide

theorem slots_sized : ∀ s ∈ lineSlots, Sized s.name s.size := by
  decide

theorem slots_fit : ∀ s ∈ lineSlots, s.offset + s.size ≤ LINE_BYTES := by
  decide

theorem fieldSlice_blockHash (line : List UInt8) :
    fieldSlice line LAYOUT.payment PAYMENT_FIELDS "blockHash" = slice line 10 32 := rfl

theorem saltsOf_eq (line : List UInt8) : saltsOf line = (slice line 241 32, slice line 706 32) := rfl

theorem fieldSlice_uriPrefix (line : List UInt8) :
    fieldSlice line LAYOUT.content CONTENT_FIELDS "uriPrefix" = slice line 386 256 := rfl

theorem fieldSlice_sigma (line : List UInt8) :
    fieldSlice line LAYOUT.sigma SIGMA_FIELDS "sigma" = slice line 739 64 := rfl

/-! ## What each side accepts -/

/-- **The accepted lines**, in one place. -/
structure Wellformed (line : List UInt8) : Prop where
  length : line.length = LINE_BYTES
  header : line.take HEADER_BYTES = HEADER
  pad : line.drop USED_BYTES = List.replicate PAD_BYTES 0
  fields : ∀ s ∈ lineSlots, Accepted s.name (slice line s.offset s.size)
  salts : ¬ (isZero (slice line 241 32) = true ∨ isZero (slice line 706 32) = true
    ∨ slice line 241 32 = slice line 706 32)
  sigma : inSigmaRange (slice line 739 64) = true

theorem requireAlg_bind_ok_iff {α : Type} {alg : ℕ} {f : Unit → Except Reason α} {a : α} :
    (requireAlg alg >>= f) = .ok a ↔ alg ∈ LAUNCH_ALGS ∧ f () = .ok a := by
  rw [requireAlg, guarded_iff, not_not]

theorem checkSigma_bind_ok_iff {α : Type} {sigma64 : List UInt8} {f : Unit → Except Reason α} {a : α} :
    (checkSigma sigma64 >>= f) = .ok a ↔ inSigmaRange sigma64 = true ∧ f () = .ok a := by
  rw [checkSigma]
  split_ifs with h h64
  · exact (and_iff_right h).symm
  · exact ⟨fun hf => (nomatch hf), fun hf => absurd hf.1 h⟩
  · exact ⟨fun hf => (nomatch hf), fun hf => absurd hf.1 h⟩

theorem slot_blockHash : ∀ s ∈ lineSlots, s.name = "blockHash" → s.offset = 10 ∧ s.size = 32 := by decide

theorem slot_uriPrefix : ∀ s ∈ lineSlots, s.name = "uriPrefix" → s.offset = 386 ∧ s.size = 256 := by decide

theorem slot_alg : ∀ s ∈ lineSlots, s.name = "alg" → s.offset = 738 ∧ s.size = 1 := by decide

variable {fields : Fields String} {half input p parts : Js} {a b line target : List UInt8} {o : Obj} {s : Slot String}
  {base : ℕ}

theorem slice_alg (h : line.length = LINE_BYTES) : slice line 738 1 = [line.getD LAYOUT.sigma 0] := by
  have hlt : 738 < line.length := by rw [h]; decide
  rw [slice, List.drop_eq_getElem_cons hlt, List.take_succ_cons, List.take_zero, List.getD_eq_getElem?_getD]
  exact congrArg (fun o => [Option.getD o 0]) (List.getElem?_eq_getElem hlt).symm

theorem algByte_eq (h : line.length = LINE_BYTES) : ofBigEndian (slice line 738 1) = algByte line := by
  rw [slice_alg h]
  exact Nat.zero_add _

/-- The tests on single fields, collected. -/
theorem fields_accepted_iff (h : line.length = LINE_BYTES) :
    (∀ s ∈ lineSlots, Accepted s.name (slice line s.offset s.size))
      ↔ isZero (slice line 10 32) = false ∧ uriPrefixOk (slice line 386 256) = true ∧ algByte line ∈ LAUNCH_ALGS := by
  rw [← algByte_eq h]
  constructor
  · intro hall
    have hhash := hall ⟨"blockHash", 10, 32⟩ (by decide)
    have huri := hall ⟨"uriPrefix", 386, 256⟩ (by decide)
    have halg := hall ⟨"alg", 738, 1⟩ (by decide)
    exact ⟨hhash.1 rfl, huri.2.1 rfl, halg.2.2 rfl⟩
  · rintro ⟨hhash, huri, halg⟩ s hs
    refine ⟨?_, ?_, ?_⟩
    · intro hname
      obtain ⟨ho, hsize⟩ := slot_blockHash s hs hname
      rw [ho, hsize]
      exact hhash
    · intro hname
      obtain ⟨ho, hsize⟩ := slot_uriPrefix s hs hname
      rw [ho, hsize]
      exact huri
    · intro hname
      obtain ⟨ho, hsize⟩ := slot_alg s hs hname
      rw [ho, hsize]
      exact halg

theorem pad_iff (h : line.length = LINE_BYTES) :
    (line.drop USED_BYTES).all (· = 0) = true ↔ line.drop USED_BYTES = List.replicate PAD_BYTES 0 := by
  rw [List.all_eq_true, List.eq_replicate_iff, List.length_drop, h]
  constructor
  · intro hall
    exact ⟨rfl, fun x hx => by simpa using hall x hx⟩
  · rintro ⟨-, hall⟩ x hx
    exact decide_eq_true (hall x hx)

/-- **THE DECODER** accepts the well-formed lines. -/
theorem decodeLine_ok_iff : decodeLine (.bytes line) = .ok parts ↔ Wellformed line ∧ partsOf line = parts := by
  show decodeBytes line = .ok parts ↔ _
  unfold decodeBytes checkSalts
  rw [guarded_iff, guarded_iff, guarded_iff, guarded_iff, guarded_iff,
    guarded_iff, requireAlg_bind_ok_iff, checkSigma_bind_ok_iff, Except.ok.injEq, fieldSlice_blockHash,
    saltsOf_eq, fieldSlice_uriPrefix, fieldSlice_sigma, not_not, not_not, not_not, not_not]
  constructor
  · rintro ⟨hlength, hheader, hpad, hhash, hsalts, huri, halg, hsigma, hparts⟩
    refine ⟨⟨hlength, hheader, (pad_iff hlength).1 hpad,
      (fields_accepted_iff hlength).2 ⟨?_, huri, halg⟩, hsalts, hsigma⟩,
      hparts⟩
    simpa using hhash
  · rintro ⟨⟨hlength, hheader, hpad, hfields, hsalts, hsigma⟩, hparts⟩
    obtain ⟨hhash, huri, halg⟩ := (fields_accepted_iff hlength).1 hfields
    exact ⟨hlength, hheader, (pad_iff hlength).2 hpad, by simpa using hhash, hsalts, huri, halg, hsigma, hparts⟩

/-- One half of a caller's object as the encoder takes it: no field of another
    name, and each field read to the bytes in its place. -/
def WrittenHalf (line : List UInt8) (base : ℕ) (fields : Fields String) (half : Js) : Prop :=
  ∃ o, asObject half = some o ∧ (∀ entry ∈ o, entry.1 ∈ fields.map Prod.fst)
    ∧ ∀ s ∈ slots base fields, readField s.name (get o s.name) s.size = .ok (slice line s.offset s.size)

theorem objectOf_ok_iff : objectOf input = .ok o ↔ asObject input = some o := by
  unfold objectOf
  cases asObject input with
  | none => exact ⟨fun h => (nomatch h), fun h => (nomatch h)⟩
  | some o' => rw [Except.ok.injEq, Option.some.injEq]

theorem knownOnly_bind_ok_iff {α : Type} {names : List String} {f : Unit → Except Reason α} {a : α} :
    (knownOnly o names >>= f) = .ok a ↔ (∀ entry ∈ o, entry.1 ∈ names) ∧ f () = .ok a := by
  rw [knownOnly, guarded_iff, not_not]

theorem writeFields_ok {out : List UInt8} (hsized : ∀ f ∈ fields, Sized f.1 f.2)
    (hfit : base + width fields ≤ target.length) (h : writeFields target base fields input = .ok out) :
    WrittenHalf out base fields input ∧ out.length = target.length ∧ out.take base = target.take base := by
  obtain ⟨o, ho, h⟩ := bind_iff.mp h
  rw [knownOnly_bind_ok_iff] at h
  obtain ⟨hlength, htake, -, hslots⟩ :=
    writeAll_ok (fun f hf bytes hbytes => (readField_ok (hsized f hf) hbytes).1) hfit h.2
  exact ⟨⟨o, objectOf_ok_iff.1 ho, h.1, hslots⟩, hlength, htake⟩

theorem writeFields_of (hhalf : WrittenHalf line base fields input) (hfit : base + width fields ≤ target.length)
    (hline : base + width fields ≤ line.length) (hagree : target.take base = line.take base) :
    ∃ out, writeFields target base fields input = .ok out ∧ out.length = target.length
      ∧ out.take (base + width fields) = line.take (base + width fields) := by
  obtain ⟨o, ho, hknown, hslots⟩ := hhalf
  obtain ⟨out, hout, hsame⟩ :=
    writeAll_of_slices (fun name size => readField name (get o name) size) hfit hline hagree hslots
  refine ⟨out, ?_, hsame⟩
  rw [writeFields, bind_iff]
  exact ⟨o, objectOf_ok_iff.2 ho, knownOnly_bind_ok_iff.2 ⟨hknown, hout⟩⟩

theorem WrittenHalf.congr {n : ℕ} (h : WrittenHalf a base fields half) (hn : base + width fields ≤ n)
    (hab : a.take n = b.take n) : WrittenHalf b base fields half := by
  obtain ⟨o, ho, hknown, hslots⟩ := h
  refine ⟨o, ho, hknown, fun s hs => ?_⟩
  have hfits := slot_fits fields hs
  rw [← slice_of_take hab (by omega)]
  exact hslots s hs

/-- **An object spells a line**: a frame of header and padding, three halves,
    and the tests on what they hold. -/
structure Encodes (parts : Js) (line : List UInt8) : Prop where
  length : line.length = LINE_BYTES
  header : line.take HEADER_BYTES = HEADER
  pad : line.drop USED_BYTES = List.replicate PAD_BYTES 0
  halves : ∃ top, asObject parts = some top ∧ (∀ entry ∈ top, entry.1 ∈ ["payment", "content", "sigma"])
    ∧ WrittenHalf line LAYOUT.payment PAYMENT_FIELDS (get top "payment")
    ∧ WrittenHalf line LAYOUT.content CONTENT_FIELDS (get top "content")
    ∧ WrittenHalf line LAYOUT.sigma SIGMA_FIELDS (get top "sigma")
  alg : algByte line ∈ LAUNCH_ALGS
  salts : ¬ (isZero (slice line 241 32) = true ∨ isZero (slice line 706 32) = true
    ∨ slice line 241 32 = slice line 706 32)
  sigma : inSigmaRange (slice line 739 64) = true

theorem payment_sized : ∀ f ∈ PAYMENT_FIELDS, Sized f.1 f.2 :=
  fun f hf => fields_sized f (by simp [hf])

theorem content_sized : ∀ f ∈ CONTENT_FIELDS, Sized f.1 f.2 :=
  fun f hf => fields_sized f (by simp [hf])

theorem sigma_sized : ∀ f ∈ SIGMA_FIELDS, Sized f.1 f.2 :=
  fun f hf => fields_sized f (by simp [hf])

theorem length_blankLine : blankLine.length = LINE_BYTES := by
  rw [blankLine, List.length_append, List.length_replicate]
  rfl

theorem algByte_of_take (ha : a.length = LINE_BYTES) (hb : b.length = LINE_BYTES)
    (h : a.take USED_BYTES = b.take USED_BYTES) : algByte a = algByte b := by
  rw [← algByte_eq ha, ← algByte_eq hb, slice_of_take h (by decide)]

theorem encodes_of_ok (h : encodeLine parts = .ok line) : Encodes parts line := by
  obtain ⟨top, htop, h⟩ := bind_iff.mp h
  obtain ⟨hknown, h⟩ := knownOnly_bind_ok_iff.mp h
  obtain ⟨l1, h1, h⟩ := bind_iff.mp h
  obtain ⟨l2, h2, h⟩ := bind_iff.mp h
  obtain ⟨l3, h3, h⟩ := bind_iff.mp h
  obtain ⟨halg, h⟩ := requireAlg_bind_ok_iff.mp h
  rw [checkSalts, guarded_iff, checkSigma_bind_ok_iff, saltsOf_eq, fieldSlice_sigma, Except.ok.injEq] at h
  obtain ⟨hsalts, hsigma, rfl⟩ := h
  obtain ⟨hpayment, hlen1, htake1⟩ := writeFields_ok payment_sized (by rw [length_blankLine]; decide) h1
  rw [length_blankLine] at hlen1
  obtain ⟨hcontent, hlen2, htake2⟩ := writeFields_ok content_sized (by rw [hlen1]; decide) h2
  rw [hlen1] at hlen2
  obtain ⟨hhalf, hlen3, htake3⟩ := writeFields_ok sigma_sized (by rw [hlen2]; decide) h3
  rw [hlen2] at hlen3
  have hused : (l3.take USED_BYTES).length = USED_BYTES := by
    rw [List.length_take, hlen3]
    rfl
  have hlength : (l3.take USED_BYTES ++ List.replicate PAD_BYTES 0).length = LINE_BYTES := by
    rw [List.length_append, hused, List.length_replicate]
    rfl
  have hline : (l3.take USED_BYTES ++ List.replicate PAD_BYTES 0).take USED_BYTES = l3.take USED_BYTES := by
    rw [List.take_append_of_le_length (by omega), List.take_take, Nat.min_self]
  have hslice : ∀ {o n : ℕ}, o + n ≤ USED_BYTES →
      slice l3 o n = slice (l3.take USED_BYTES ++ List.replicate PAD_BYTES 0) o n :=
    fun hn => slice_of_take hline.symm hn
  -- the buffers agree up to any point that the later writes leave alone
  have h3line : ∀ {n : ℕ}, n ≤ USED_BYTES → l3.take n = (l3.take USED_BYTES ++ List.replicate PAD_BYTES 0).take n := by
    intro n hn
    exact (take_of_take hline hn).symm
  have h2line : ∀ {n : ℕ}, n ≤ LAYOUT.sigma →
    l2.take n = (l3.take USED_BYTES ++ List.replicate PAD_BYTES 0).take n := by
    intro n hn
    exact (take_of_take htake3 hn).symm.trans (h3line (Nat.le_trans hn (by decide)))
  have h1line : ∀ {n : ℕ}, n ≤ LAYOUT.content →
    l1.take n = (l3.take USED_BYTES ++ List.replicate PAD_BYTES 0).take n := by
    intro n hn
    exact (take_of_take htake2 hn).symm.trans (h2line (Nat.le_trans hn (by decide)))
  refine ⟨hlength, ?_, ?_, ⟨top, objectOf_ok_iff.1 htop, hknown, ?_, ?_, ?_⟩, ?_, ?_, ?_⟩
  · rw [← h1line (by decide)]
    exact htake1
  · rw [List.drop_append, List.drop_of_length_le (by omega), hused, Nat.sub_self]
    rfl
  · exact hpayment.congr (by decide) (h1line (Nat.le_refl _))
  · exact hcontent.congr (by decide) (h2line (Nat.le_refl _))
  · exact hhalf.congr (by decide) (h3line (Nat.le_refl _))
  · rw [← algByte_of_take hlen3 hlength hline.symm]
    exact halg
  · rw [← hslice (by decide), ← hslice (by decide)]
    exact hsalts
  · rw [← hslice (by decide)]
    exact hsigma

theorem Encodes.ok (h : Encodes parts line) : encodeLine parts = .ok line := by
  obtain ⟨top, htop, hknown, hpayment, hcontent, hhalf⟩ := h.halves
  have hblank : blankLine.take LAYOUT.payment = line.take LAYOUT.payment := h.header.symm
  obtain ⟨l1, h1, hlen1, htake1⟩ := writeFields_of hpayment (by rw [length_blankLine]; decide)
    (by rw [h.length]; decide) hblank
  rw [length_blankLine] at hlen1
  obtain ⟨l2, h2, hlen2, htake2⟩ := writeFields_of hcontent (by rw [hlen1]; decide) (by rw [h.length]; decide) htake1
  rw [hlen1] at hlen2
  obtain ⟨l3, h3, hlen3, htake3⟩ := writeFields_of hhalf (by rw [hlen2]; decide) (by rw [h.length]; decide) htake2
  rw [hlen2] at hlen3
  have htake : l3.take USED_BYTES = line.take USED_BYTES := htake3
  have hslice : ∀ {o n : ℕ}, o + n ≤ USED_BYTES → slice l3 o n = slice line o n := fun hn => slice_of_take htake hn
  rw [encodeLine, bind_iff]
  refine ⟨top, objectOf_ok_iff.2 htop, knownOnly_bind_ok_iff.2 ⟨hknown, ?_⟩⟩
  rw [h1, ok_bind, h2, ok_bind, h3, ok_bind, requireAlg_bind_ok_iff, checkSalts, guarded_iff,
    checkSigma_bind_ok_iff, saltsOf_eq, fieldSlice_sigma, Except.ok.injEq, algByte_of_take hlen3 h.length htake,
    hslice (by decide), hslice (by decide), hslice (by decide), htake, ← h.pad, List.take_append_drop]
  exact ⟨h.alg, h.salts, h.sigma, rfl⟩

/-- **THE ENCODER** writes the line an object spells. -/
theorem encodeLine_ok_iff : encodeLine parts = .ok line ↔ Encodes parts line :=
  ⟨encodes_of_ok, Encodes.ok⟩

/-! ## Both directions -/

/-- Reading a field of the decoded object back. -/
theorem get_readFields (line : List UInt8) (hnodup : (fields.map Prod.fst).Nodup) (hs : s ∈ slots base fields) :
    get (readFields line base fields) s.name = fieldValue s.name s.size (slice line s.offset s.size) := by
  induction fields generalizing base with
  | nil => cases hs
  | cons field rest ih =>
    obtain ⟨name, size⟩ := field
    rw [List.map_cons, List.nodup_cons] at hnodup
    rcases List.mem_cons.mp hs with rfl | htail
    · exact get_cons_self _ _ _
    · have hne : s.name ≠ name := by
        rintro rfl
        exact hnodup.1 (slot_name_mem htail)
      exact (get_cons_of_ne hne _ _).trans (ih hnodup.2 htail)

theorem writtenHalf_readFields (hnodup : (fields.map Prod.fst).Nodup) (hline : base + width fields ≤ line.length)
    (hslots : ∀ s ∈ slots base fields, Sized s.name s.size ∧ Accepted s.name (slice line s.offset s.size)) :
    WrittenHalf line base fields (.object (readFields line base fields)) := by
  refine ⟨readFields line base fields, rfl, ?_, fun s hs => ?_⟩
  · intro entry hentry
    obtain ⟨s, hs, rfl⟩ := List.mem_map.mp hentry
    exact slot_name_mem hs
  · have hfits := slot_fits fields hs
    rw [get_readFields line hnodup hs]
    exact readField_fieldValue (hslots s hs).1 (length_slice (by omega)) (hslots s hs).2

theorem Wellformed.encodes (h : Wellformed line) : Encodes (partsOf line) line := by
  have hslots : ∀ s ∈ lineSlots, Sized s.name s.size ∧ Accepted s.name (slice line s.offset s.size) :=
    fun s hs => ⟨slots_sized s hs, h.fields s hs⟩
  refine ⟨h.length, h.header, h.pad, ⟨_, rfl, by simp, ?_, ?_, ?_⟩, ((fields_accepted_iff h.length).1 h.fields).2.2,
    h.salts, h.sigma⟩
  · exact writtenHalf_readFields (by decide) (by rw [h.length]; decide) fun s hs => hslots s (by simp [lineSlots, hs])
  · exact writtenHalf_readFields (by decide) (by rw [h.length]; decide) fun s hs => hslots s (by simp [lineSlots, hs])
  · exact writtenHalf_readFields (by decide) (by rw [h.length]; decide) fun s hs => hslots s (by simp [lineSlots, hs])

theorem WrittenHalf.accepted (hsized : ∀ s ∈ slots base fields, Sized s.name s.size)
    (h : WrittenHalf line base fields half) :
    ∀ s ∈ slots base fields, Accepted s.name (slice line s.offset s.size) := by
  intro s hs
  obtain ⟨o, -, -, hslots⟩ := h
  exact (readField_ok (hsized s hs) (hslots s hs)).2.1

theorem Encodes.wellformed (h : Encodes parts line) : Wellformed line := by
  obtain ⟨top, -, -, hpayment, hcontent, hhalf⟩ := h.halves
  refine ⟨h.length, h.header, h.pad, fun s hs => ?_, h.salts, h.sigma⟩
  rw [lineSlots, List.mem_append, List.mem_append] at hs
  have hsized : ∀ {base fields}, (∀ t ∈ slots base fields, t ∈ lineSlots) → ∀ t ∈ slots base fields,
    Sized t.name t.size :=
    fun hsub t ht => slots_sized t (hsub t ht)
  rcases hs with (hs | hs) | hs
  · exact hpayment.accepted (hsized fun t ht => by simp [lineSlots, ht]) s hs
  · exact hcontent.accepted (hsized fun t ht => by simp [lineSlots, ht]) s hs
  · exact hhalf.accepted (hsized fun t ht => by simp [lineSlots, ht]) s hs

/-! ## What two objects have in common -/

/-- The three halves of an object and their fields. -/
def HALVES : List (String × ℕ × Fields String) := [("payment", LAYOUT.payment, PAYMENT_FIELDS),
  ("content", LAYOUT.content, CONTENT_FIELDS), ("sigma", LAYOUT.sigma, SIGMA_FIELDS)]

/-- What an object's field denotes. -/
def valueAt (parts : Js) (half name : String) : Option Meaning := do
  let top ← asObject parts
  let fields ← asObject (get top half)
  meaning name (get fields name)

/-- Two objects denote the same in every field. -/
def SameValues (p q : Js) : Prop :=
  ∀ half ∈ HALVES, ∀ field ∈ half.2.2, valueAt p half.1 field.1 = valueAt q half.1 field.1

theorem valueAt_eq {top : Obj} {half name : String} (htop : asObject p = some top)
    (ho : asObject (get top half) = some o) : valueAt p half name = meaning name (get o name) := by
  rw [valueAt, htop, Option.bind_eq_bind, Option.bind_some, ho]
  rfl

/-- The line an object spells tells what every field of the object denotes. -/
theorem Encodes.valueAt (h : Encodes p line) {half : String × ℕ × Fields String} (hhalf : half ∈ HALVES)
    (hs : s ∈ slots half.2.1 half.2.2) :
    LineCodec.valueAt p half.1 s.name = meaning s.name (.bytes (slice line s.offset s.size)) := by
  obtain ⟨top, htop, -, hpayment, hcontent, hsigma⟩ := h.halves
  have hmem : s ∈ lineSlots ∧ WrittenHalf line half.2.1 half.2.2 (get top half.1) := by
    simp only [HALVES, List.mem_cons, List.not_mem_nil, or_false] at hhalf
    rcases hhalf with rfl | rfl | rfl
    · exact ⟨by simp [lineSlots, hs], hpayment⟩
    · exact ⟨by simp [lineSlots, hs], hcontent⟩
    · exact ⟨by simp [lineSlots, hs], hsigma⟩
  obtain ⟨o, ho, -, hslots⟩ := hmem.2
  rw [valueAt_eq htop ho]
  exact (readField_ok (slots_sized s hmem.1) (hslots s hs)).2.2

theorem exists_half (hs : s ∈ lineSlots) : ∃ half ∈ HALVES, s ∈ slots half.2.1 half.2.2 := by
  rw [lineSlots, List.mem_append, List.mem_append] at hs
  rcases hs with (hs | hs) | hs
  · exact ⟨("payment", LAYOUT.payment, PAYMENT_FIELDS), by simp [HALVES], hs⟩
  · exact ⟨("content", LAYOUT.content, CONTENT_FIELDS), by simp [HALVES], hs⟩
  · exact ⟨("sigma", LAYOUT.sigma, SIGMA_FIELDS), by simp [HALVES], hs⟩

theorem Wellformed.eq_of_slices (ha : Wellformed a) (hb : Wellformed b)
    (h : ∀ s ∈ lineSlots, slice a s.offset s.size = slice b s.offset s.size) : a = b := by
  have hheader : a.take HEADER_BYTES = b.take HEADER_BYTES := ha.header.trans hb.header.symm
  exact eq_of_slots (PAYMENT_FIELDS ++ CONTENT_FIELDS ++ SIGMA_FIELDS) hheader (ha.pad.trans hb.pad.symm) h

/-- Two objects spell one line exactly when they denote the same. -/
theorem line_eq_iff_sameValues {q : Js} (hp : Encodes p a) (hq : Encodes q b) : a = b ↔ SameValues p q := by
  constructor
  · rintro rfl half hhalf field hfield
    obtain ⟨s, hs, hname, -⟩ : ∃ s ∈ slots half.2.1 half.2.2, s.name = field.1 ∧ s.size = field.2 := exists_slot hfield
    rw [← hname, hp.valueAt hhalf hs, hq.valueAt hhalf hs]
  · intro hsame
    have ha := hp.wellformed
    have hb := hq.wellformed
    refine ha.eq_of_slices hb fun s hs => ?_
    obtain ⟨half, hhalf, hslot⟩ := exists_half hs
    have hvalue := hsame half hhalf (s.name, s.size) (mem_of_slot hslot)
    rw [hp.valueAt hhalf hslot, hq.valueAt hhalf hslot] at hvalue
    have hfits : s.offset + s.size ≤ LINE_BYTES := slots_fit s hs
    refine eq_of_meaning (ha.fields s hs) (hb.fields s hs) ?_ hvalue
    rw [length_slice (by rw [ha.length]; exact hfits), length_slice (by rw [hb.length]; exact hfits)]

/-- **THE CODEC IS A BIJECTION** on the accepted lines: a line that decodes is
    what its parts encode to; a line that was encoded decodes, to parts that
    encode to it; and two objects give one line exactly when they denote the
    same value in every field. -/
theorem line_bijection : (∀ line parts, decodeLine (.bytes line) = .ok parts → encodeLine parts = .ok line)
      ∧ (∀ parts line, encodeLine parts = .ok line →
        ∃ decoded, decodeLine (.bytes line) = .ok decoded ∧ encodeLine decoded = .ok line)
      ∧ ∀ p q a b, encodeLine p = .ok a → encodeLine q = .ok b → (a = b ↔ SameValues p q) := by
  refine ⟨?_, ?_, ?_⟩
  · intro line parts h
    obtain ⟨hline, rfl⟩ := decodeLine_ok_iff.mp h
    exact hline.encodes.ok
  · intro parts line h
    have hline := (encodeLine_ok_iff.mp h).wellformed
    exact ⟨partsOf line, decodeLine_ok_iff.mpr ⟨hline, rfl⟩, hline.encodes.ok⟩
  · intro p q a b hp hq
    exact line_eq_iff_sameValues (encodeLine_ok_iff.mp hp) (encodeLine_ok_iff.mp hq)

/-! ## The sample line -/

/-- `text.repeat(count)`, as a value. -/
def repeated (text : String) (count : ℕ) : Js := .string (List.replicate count (units text)).flatten

def samplePayment : Obj := [("chainId", .number (.int 8453)), ("blockHash", repeated "ab" 32),
  ("blockNumber", .number (.int 12345678)), ("blockTime", .number (.int 1700000000)), ("txIndex", .number (.int 7)),
  ("localLogIndex", .number (.int 4)), ("txHash", repeated "cd" 32), ("token", repeated "22" 20),
  ("from", repeated "33" 20), ("to", repeated "11" 20), ("value", .string (units "1000000")),
  ("method", .number (.int 1)), ("authorizer", repeated "3a" 20), ("nonce", repeated "44" 32),
    ("saltP", repeated "55" 32)]

def sampleContent : Obj := [("uuid", repeated "66" 16), ("sellerIdHash", repeated "77" 32),
  ("sellerKeyId", repeated "88" 32), ("requestMethod", .number (.int 2)), ("uriDigest", repeated "99" 32),
  ("uriPrefix", .string (units "https://example.test/v1")), ("contentDigest", repeated "aa" 32),
  ("responseDigest", repeated "bb" 32), ("saltC", repeated "cc" 32)]

/-- `r` and `s` are one. -/
def sampleSigma : Obj := [("alg", .number (.int 1)),
  ("sigma", .bytes (List.replicate 31 0 ++ [1] ++ (List.replicate 31 0 ++ [1])))]

def sampleParts : Js :=
  .object [("payment", .object samplePayment), ("content", .object sampleContent), ("sigma", .object sampleSigma)]

theorem sampleParts_encode : (encodeLine sampleParts).toOption.isSome = true := by decide +kernel

def sampleLine : List UInt8 := (encodeLine sampleParts).toOption.getD []

theorem encodeLine_sampleParts : encodeLine sampleParts = .ok sampleLine := by
  have hok := sampleParts_encode
  unfold sampleLine
  cases hline : encodeLine sampleParts with
  | error e =>
    rw [hline] at hok
    cases hok
  | ok line => rfl

theorem line_bijection_sample :
    ∃ decoded, decodeLine (.bytes sampleLine) = .ok decoded ∧ encodeLine decoded = .ok sampleLine :=
  line_bijection.2.1 sampleParts sampleLine encodeLine_sampleParts

end LineCodec
