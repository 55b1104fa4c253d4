import Chit402.EcdsaBytesProofs

/-! # RLP

    A value is a byte string or a list of values.  The encoder writes a
    prefix with the length of the payload; the reader goes through a buffer
    by offsets, and an item it has read says where the next one starts. -/

namespace Rlp

open EcdsaBytes ExceptFlow FixedRecord Solidity

/-- Byte strings and lists of values, as `Uint8Array` and `Array`. -/
inductive Value where
  | bytes (bytes : List UInt8)
  | list (items : List Value)

/-! ## Encoding -/

def encodeLen (len : ℕ) : List UInt8 := bigBytes len

/-- `prefix`. The first byte is stored modulo 256. -/
def withPrefix (shortBase : ℕ) (payload : List UInt8) : List UInt8 :=
  if payload.length ≤ 55 then UInt8.ofNat (shortBase + payload.length) :: payload
  else UInt8.ofNat (shortBase + 55 + (encodeLen payload.length).length) :: (encodeLen payload.length ++ payload)

def rlpBytes : List UInt8 → List UInt8
  | [b] => if b < 0x80 then [b] else withPrefix 0x80 [b]
  | bytes => withPrefix 0x80 bytes

def rlpList (encodedItems : List (List UInt8)) : List UInt8 := withPrefix 0xc0 encodedItems.flatten

/-- `none` is the error `rlp_negative`. -/
def rlpInt (value : ℤ) : Option (List UInt8) :=
  if value < 0 then none else if value = 0 then some [0x80] else some (rlpBytes (bigBytes value.toNat))

mutual

def Value.encode : Value → List UInt8
  | .bytes bytes => rlpBytes bytes
  | .list items => rlpList (encodeItems items)

def encodeItems : List Value → List (List UInt8)
  | [] => []
  | item :: rest => item.encode :: encodeItems rest

end

/-! ## Decoding -/

/-- A buffer is shorter than `2 ^ 53` bytes. -/
abbrev Uint8Array := { bytes : List UInt8 // bytes.length < 2 ^ 53 }

/-- The errors of the reader. -/
inductive Invalid where
  | short
  | nonMinimalLength
  | nonMinimal
  | badString
  | nonMinimalList
  | shortList
  | overrun
  | trailing
deriving DecidableEq

def Invalid.message : Invalid → String
  | .short => "rlp short"
  | .nonMinimalLength => "rlp non-minimal length"
  | .nonMinimal => "rlp non-minimal"
  | .badString => "rlp bad string"
  | .nonMinimalList => "rlp non-minimal list"
  | .shortList => "rlp short list"
  | .overrun => "rlp overrun"
  | .trailing => "rlp trailing"

/-- What is read at an offset. Reading goes forward, so the loop over a list ends. -/
structure Item (buf : Uint8Array) (offset : ℕ) where
  value : Value
  next : ℕ
  forward : offset < next
  inside : offset < buf.1.length

/-- `len`; its `next` is `offset + count`. -/
def readLen (buf : Uint8Array) (offset count : ℕ) : Except Invalid ℕ :=
  if count = 0 ∨ buf.1.length < offset + count then .error .short
  else if buf.1[offset]? = some 0 then .error .nonMinimalLength
  else .ok (doubleBytes (slice buf.1 offset count))

theorem lt_stop {buf : Uint8Array} {offset : ℕ} (hin : offset < buf.1.length) (count len : ℕ) :
    offset < roundDouble (offset + 1 + count + len) := by
  have hbuf := buf.2
  by_cases hsmall : offset + 1 + count + len < 2 ^ 53
  · rw [roundDouble_of_lt hsmall]
    omega
  · have hlarge := le_roundDouble (Nat.le_of_not_lt hsmall)
    omega

mutual

def readItem (buf : Uint8Array) (offset : ℕ) : Except Invalid (Item buf offset) :=
  if h : offset < buf.1.length then
    let prefixByte := (buf.1.get ⟨offset, h⟩).toNat
    if prefixByte < 0x80 then .ok ⟨.bytes (slice buf.1 offset 1), offset + 1, by omega, h⟩
    else if prefixByte ≤ 0xb7 then
      let len := prefixByte - 0x80
      let start := offset + 1
      if buf.1.length < start + len then .error .short
      else if len = 1 ∧ (buf.1[start]?).any (· < 0x80) then .error .nonMinimal
      else .ok ⟨.bytes (slice buf.1 start len), start + len, by omega, h⟩
    else if prefixByte ≤ 0xbf then do
      let count := prefixByte - 0xb7
      let len ← readLen buf (offset + 1) count
      let next := offset + 1 + count
      let stop := roundDouble (next + len)
      if len < 56 ∨ buf.1.length < stop then .error .badString
      else .ok ⟨.bytes (slice buf.1 next (stop - next)), stop, lt_stop h count len, h⟩
    else if prefixByte ≤ 0xf7 then do
      let len := prefixByte - 0xc0
      let items ← readList buf (offset + 1) (offset + 1 + len)
      .ok ⟨.list items, offset + 1 + len, by omega, h⟩
    else do
      let count := prefixByte - 0xf7
      let len ← readLen buf (offset + 1) count
      let next := offset + 1 + count
      let stop := roundDouble (next + len)
      if len < 56 then .error .nonMinimalList
      else
        let items ← readList buf next stop
        .ok ⟨.list items, stop, lt_stop h count len, h⟩
  else .error .short
termination_by (buf.1.length - offset, 0)
decreasing_by
  · exact Prod.Lex.left _ _ (Nat.sub_lt_sub_left h (Nat.lt_succ_self offset))
  · exact Prod.Lex.left _ _ (Nat.sub_lt_sub_left h (Nat.lt_add_right _ (Nat.lt_succ_self offset)))

def readList (buf : Uint8Array) (start stop : ℕ) : Except Invalid (List Value) :=
  if buf.1.length < stop then .error .shortList else readItems buf start stop
termination_by (buf.1.length - start, 2)

/-- The loop of `readList`. -/
def readItems (buf : Uint8Array) (offset stop : ℕ) : Except Invalid (List Value) :=
  if offset < stop then do
    let item ← readItem buf offset
    if stop < item.next then .error .overrun
    else
      let rest ← readItems buf item.next stop
      .ok (item.value :: rest)
  else .ok []
termination_by (buf.1.length - offset, 1)
decreasing_by
  · exact Prod.Lex.right _ (by decide)
  · have hforward := item.forward
    have hinside := item.inside
    exact Prod.Lex.left _ _ (by omega)

end

def rlpDecode (buf : Uint8Array) : Except Invalid Value := do
  let item : Item buf 0 ← readItem buf 0
  if item.next ≠ buf.1.length then .error .trailing else .ok item.value

/-! ## Prefixes -/

section Prefixes

variable {buf : Uint8Array} {offset base count len : ℕ}

theorem slice_succ (bytes : List UInt8) (h : offset < bytes.length) (n : ℕ) :
    slice bytes offset (1 + n) = bytes.get ⟨offset, h⟩ :: slice bytes (offset + 1) n := by
  rw [slice, List.drop_eq_getElem_cons h, Nat.add_comm, List.take_succ_cons]
  rfl

theorem readLen_ok_iff : readLen buf offset count = .ok len ↔ 0 < count ∧ offset + count ≤ buf.1.length
    ∧ NoLeadingZero (slice buf.1 offset count) ∧ len = doubleBytes (slice buf.1 offset count) := by
  unfold readLen NoLeadingZero
  by_cases hcount : count = 0 ∨ buf.1.length < offset + count
  · rw [if_pos hcount]
    constructor
    · nofun
    · rintro ⟨hpos, hfit, -⟩
      omega
  · rw [if_neg hcount, head_slice _ (by omega)]
    split_ifs with hzero
    · constructor
      · nofun
      · rintro ⟨-, -, hmin, -⟩
        exact (hmin hzero).elim
    · constructor
      · rintro ⟨⟩
        exact ⟨by omega, by omega, hzero, rfl⟩
      · rintro ⟨-, -, -, rfl⟩
        rfl

theorem slice_short (h : offset < buf.1.length) (hb : (buf.1.get ⟨offset, h⟩).toNat = base + len) (hlen : len ≤ 55)
    (hfit : offset + 1 + len ≤ buf.1.length) :
    slice buf.1 offset (1 + len) = withPrefix base (slice buf.1 (offset + 1) len) := by
  have hlength : (slice buf.1 (offset + 1) len).length = len := length_slice hfit
  unfold withPrefix
  rw [slice_succ _ h, hlength, if_pos hlen, ofNat_of_toNat hb]

theorem stop_exact {n : ℕ} (h : ¬ buf.1.length < roundDouble n) : roundDouble n = n :=
  (roundDouble_eq_of_lt (Nat.lt_of_le_of_lt (Nat.le_of_not_lt h) buf.2)).2

theorem readLen_exact (hread : readLen buf offset count = .ok len) (hfit : len ≤ buf.1.length) :
    len = ofBigEndian (slice buf.1 offset count) := by
  have hbuf := buf.2
  obtain ⟨-, -, -, hdouble⟩ := readLen_ok_iff.1 hread
  rw [hdouble] at hfit
  rw [hdouble]
  exact doubleBytes_of_lt (by omega)

/-- A long payload behind its prefix and its length. -/
theorem slice_long (h : offset < buf.1.length) (hb : (buf.1.get ⟨offset, h⟩).toNat = base + 55 + count)
    (hread : readLen buf (offset + 1) count = .ok len) (hlen : 56 ≤ len)
    (hfit : offset + 1 + count + len ≤ buf.1.length) :
    slice buf.1 offset (1 + (count + len)) = withPrefix base (slice buf.1 (offset + 1 + count) len) := by
  obtain ⟨hpos, hcount, hminimal, -⟩ := readLen_ok_iff.1 hread
  have hlength : (slice buf.1 (offset + 1 + count) len).length = len := length_slice hfit
  have hencoded : encodeLen len = slice buf.1 (offset + 1) count := by
    unfold encodeLen
    rw [readLen_exact hread (by omega), bigBytes_ofBigEndian hminimal]
  have hbytes : (encodeLen len).length = count := by
    rw [hencoded]
    exact length_slice hcount
  unfold withPrefix
  rw [slice_succ _ h, slice_add, hlength, if_neg (by omega), hbytes, ofNat_of_toNat hb, hencoded]

end Prefixes

/-! ## What is read was encoded -/

theorem rlpBytes_single {b : UInt8} (h : b < 0x80) : rlpBytes [b] = [b] := if_pos h

theorem rlpBytes_prefixed {bytes : List UInt8} (h : ∀ b, bytes = [b] → ¬ b < 0x80) :
    rlpBytes bytes = withPrefix 0x80 bytes := by
  unfold rlpBytes
  split
  · rename_i b
    exact if_neg (h b rfl)
  · rfl

theorem rlpBytes_long {bytes : List UInt8} (h : 1 < bytes.length) : rlpBytes bytes = withPrefix 0x80 bytes := by
  refine rlpBytes_prefixed ?_
  rintro b rfl
  simp at h

/-- The ways an item is read, by the class of its prefix byte. -/
inductive Reading (buf : Uint8Array) (offset : ℕ) : Value → ℕ → Prop
  | single (h : offset < buf.1.length) (hb : (buf.1.get ⟨offset, h⟩).toNat < 0x80) :
      Reading buf offset (.bytes (slice buf.1 offset 1)) (offset + 1)
  | shortString (len : ℕ) (h : offset < buf.1.length) (hb : (buf.1.get ⟨offset, h⟩).toNat = 0x80
      + len) (hlen : len ≤ 55)
      (hfit : offset + 1 + len ≤ buf.1.length) (hlow : len = 1 → ∀ b ∈ buf.1[offset + 1]?, ¬ b < 0x80) :
      Reading buf offset (.bytes (slice buf.1 (offset + 1) len)) (offset + 1 + len)
  | longString (count len : ℕ) (h : offset < buf.1.length)
      (hb : (buf.1.get ⟨offset, h⟩).toNat = 0x80 + 55 + count) (hcount : count ≤ 8)
      (hread : readLen buf (offset + 1) count = .ok len) (hlen : 56 ≤ len)
      (hfit : offset + 1 + count + len ≤ buf.1.length) :
      Reading buf offset (.bytes (slice buf.1 (offset + 1 + count) len)) (offset + 1 + count + len)
  | shortList (len : ℕ) (items : List Value) (h : offset < buf.1.length)
      (hb : (buf.1.get ⟨offset, h⟩).toNat = 0xc0 + len) (hlen : len ≤ 55) (hfit : offset + 1 + len ≤ buf.1.length)
      (hitems : readItems buf (offset + 1) (offset + 1 + len) = .ok items) :
      Reading buf offset (.list items) (offset + 1 + len)
  | longList (count len : ℕ) (items : List Value) (h : offset < buf.1.length)
      (hb : (buf.1.get ⟨offset, h⟩).toNat = 0xc0 + 55 + count) (hcount : count ≤ 8)
      (hread : readLen buf (offset + 1) count = .ok len) (hlen : 56 ≤ len)
      (hfit : offset + 1 + count + len ≤ buf.1.length)
      (hitems : readItems buf (offset + 1 + count) (offset + 1 + count + len) = .ok items) :
      Reading buf offset (.list items) (offset + 1 + count + len)

theorem readList_ok_iff {buf : Uint8Array} {start stop : ℕ} {items : List Value} :
    readList buf start stop = .ok items ↔ ¬ buf.1.length < stop ∧ readItems buf start stop = .ok items := by
  unfold readList
  split_ifs with h
  · constructor
    · nofun
    · exact fun h' => (h'.1 h).elim
  · exact ⟨fun h' => ⟨h, h'⟩, fun h' => h'.2⟩

/-- **WHAT IS READ**, class by class. -/
theorem reading_of_ok {buf : Uint8Array} {offset : ℕ} {item : Item buf offset} (h : readItem buf offset = .ok item) :
    Reading buf offset item.value item.next := by
  have hin := item.inside
  unfold readItem at h
  rw [dif_pos hin] at h
  dsimp only at h
  have hp : (buf.1.get ⟨offset, hin⟩).toNat < 256 := (buf.1.get ⟨offset, hin⟩).toNat_lt
  by_cases hsingle : (buf.1.get ⟨offset, hin⟩).toNat < 0x80
  · rw [if_pos hsingle] at h
    rw [← Except.ok.inj h]
    exact .single hin hsingle
  rw [if_neg hsingle] at h
  by_cases hshort : (buf.1.get ⟨offset, hin⟩).toNat ≤ 0xb7
  · rw [if_pos hshort] at h
    obtain ⟨hfit, h⟩ := ite_error_ok_iff.1 h
    obtain ⟨hlow, h⟩ := ite_error_ok_iff.1 h
    rw [← Except.ok.inj h]
    refine .shortString _ hin (by omega) (by omega) (by omega) ?_
    intro hone b hbyte hlt
    refine hlow ⟨hone, ?_⟩
    rw [Option.mem_def.1 hbyte]
    simpa using hlt
  rw [if_neg hshort] at h
  by_cases hlong : (buf.1.get ⟨offset, hin⟩).toNat ≤ 0xbf
  · rw [if_pos hlong] at h
    obtain ⟨len, hread, h⟩ := bind_iff.1 h
    obtain ⟨hbad, h⟩ := ite_error_ok_iff.1 h
    obtain ⟨hlen, hfit⟩ := not_or.1 hbad
    have hexact := stop_exact hfit
    rw [← Except.ok.inj h]
    dsimp only
    rw [hexact] at hfit ⊢
    rw [Nat.add_sub_cancel_left]
    exact .longString _ len hin (by omega) (by omega) hread (by omega) (by omega)
  rw [if_neg hlong] at h
  by_cases hlist : (buf.1.get ⟨offset, hin⟩).toNat ≤ 0xf7
  · rw [if_pos hlist] at h
    obtain ⟨items, hitems, h⟩ := bind_iff.1 h
    obtain ⟨hfit, hitems⟩ := readList_ok_iff.1 hitems
    rw [← Except.ok.inj h]
    exact .shortList _ items hin (by omega) (by omega) (by omega) hitems
  rw [if_neg hlist] at h
  obtain ⟨len, hread, h⟩ := bind_iff.1 h
  obtain ⟨hlen, h⟩ := ite_error_ok_iff.1 h
  obtain ⟨items, hitems, h⟩ := bind_iff.1 h
  obtain ⟨hfit, hitems⟩ := readList_ok_iff.1 hitems
  have hexact := stop_exact hfit
  rw [← Except.ok.inj h]
  dsimp only
  rw [hexact] at hfit hitems ⊢
  exact .longList _ len items hin (by omega) (by omega) hread (by omega) (by omega) hitems

theorem Reading.inside {buf : Uint8Array} {offset next : ℕ} {value : Value} (h : Reading buf offset value next) :
    offset < buf.1.length := by
  cases h <;> assumption

theorem Reading.forward {buf : Uint8Array} {offset next : ℕ} {value : Value} (h : Reading buf offset value next) :
    offset < next := by
  cases h <;> omega

theorem stop_of_fits {buf : Uint8Array} {n : ℕ} (h : n ≤ buf.1.length) : roundDouble n = n :=
  roundDouble_of_lt (Nat.lt_of_le_of_lt h buf.2)

/-- A reading is what the reader answers. -/
theorem ok_of_reading {buf : Uint8Array} {offset next : ℕ} {value : Value} (h : Reading buf offset value next) :
    readItem buf offset = .ok ⟨value, next, h.forward, h.inside⟩ := by
  unfold readItem
  rw [dif_pos h.inside]
  dsimp only
  cases h with
  | single h hb =>
    rw [if_pos hb]
  | shortString len h hb hlen hfit hlow =>
    have hlow' : ¬ (len = 1 ∧ (buf.1[offset + 1]?).any (· < 0x80)) := by
      rintro ⟨hone, hany⟩
      obtain ⟨b, hbyte, hlt⟩ := (Option.any_eq_true _ _).1 hany
      exact hlow hone b hbyte (by simpa using hlt)
    simp only [hb, Nat.add_sub_cancel_left]
    rw [if_neg (by omega), if_pos (by omega), if_neg (by omega), if_neg hlow']
  | longString count len h hb hcount hread hlen hfit =>
    obtain ⟨hpos, -⟩ := readLen_ok_iff.1 hread
    have hsub : 0x80 + 55 + count - 0xb7 = count := by omega
    simp only [hb, hsub]
    rw [if_neg (by omega), if_neg (by omega), if_pos (by omega), hread, ok_bind]
    simp only [stop_of_fits hfit, Nat.add_sub_cancel_left]
    exact if_neg (by omega)
  | shortList len items h hb hlen hfit hitems =>
    simp only [hb, Nat.add_sub_cancel_left]
    rw [if_neg (by omega), if_neg (by omega), if_neg (by omega), if_pos (by omega),
      readList_ok_iff.2 ⟨by omega, hitems⟩, ok_bind]
  | longList count len items h hb hcount hread hlen hfit hitems =>
    obtain ⟨hpos, -⟩ := readLen_ok_iff.1 hread
    have hsub : 0xc0 + 55 + count - 0xf7 = count := by omega
    simp only [hb, hsub]
    rw [if_neg (by omega), if_neg (by omega), if_neg (by omega), if_neg (by omega), hread, ok_bind, if_neg (by omega)]
    simp only [stop_of_fits hfit]
    rw [readList_ok_iff.2 ⟨by omega, hitems⟩, ok_bind]

theorem readItems_done {buf : Uint8Array} {offset stop : ℕ} (h : ¬ offset < stop) :
    readItems buf offset stop = .ok [] := by
  unfold readItems
  exact if_neg h

/-- One turn of the loop. -/
theorem readItems_cons_iff {buf : Uint8Array} {offset stop : ℕ} {items : List Value} (h : offset < stop) :
    readItems buf offset stop = .ok items ↔ ∃ value next rest, Reading buf offset value next ∧ next ≤ stop
      ∧ readItems buf next stop = .ok rest ∧ items = value :: rest := by
  rw [readItems, if_pos h]
  constructor
  · intro hread
    obtain ⟨item, hitem, hread⟩ := bind_iff.1 hread
    obtain ⟨hfit, hread⟩ := ite_error_ok_iff.1 hread
    obtain ⟨rest, hrest, hread⟩ := bind_iff.1 hread
    exact ⟨item.value, item.next, rest, reading_of_ok hitem, by omega, hrest, (Except.ok.inj hread).symm⟩
  · rintro ⟨value, next, rest, hreading, hfit, hrest, rfl⟩
    rw [ok_of_reading hreading, ok_bind]
    dsimp only
    rw [if_neg (by omega), hrest]
    rfl

mutual

/-- **WHAT IS READ IS THERE IN ITS ENCODING**, and inside the buffer. -/
theorem Reading.encode {buf : Uint8Array} {offset next : ℕ} {value : Value} (h : Reading buf offset value next) :
    next ≤ buf.1.length ∧ slice buf.1 offset (next - offset) = value.encode := by
  cases h with
  | single h hb =>
    refine ⟨h, ?_⟩
    have hslice : slice buf.1 offset 1 = [buf.1.get ⟨offset, h⟩] := slice_succ _ h 0
    rw [Nat.add_sub_cancel_left, Value.encode, hslice]
    exact (rlpBytes_single (UInt8.lt_iff_toNat_lt.2 hb)).symm
  | shortString len h hb hlen hfit hlow =>
    refine ⟨hfit, ?_⟩
    rw [Nat.add_assoc, Nat.add_sub_cancel_left, slice_short h hb hlen hfit, Value.encode]
    refine (rlpBytes_prefixed ?_).symm
    intro b hsingle
    have hone : len = 1 := by
      rw [← length_slice hfit, hsingle]
      rfl
    refine hlow hone b ?_
    rw [← head_slice buf.1 (show 0 < len by omega), hsingle]
    rfl
  | longString count len h hb hcount hread hlen hfit =>
    refine ⟨hfit, ?_⟩
    have hlength : (slice buf.1 (offset + 1 + count) len).length = len := length_slice hfit
    rw [show offset + 1 + count + len - offset = 1 + (count + len) by
      omega, slice_long h hb hread hlen hfit, Value.encode,
      rlpBytes_long (by omega)]
  | shortList len items h hb hlen hfit hitems =>
    refine ⟨hfit, ?_⟩
    have hrest := readItems_encode (Nat.le_add_right _ _) hfit hitems
    rw [Nat.add_sub_cancel_left] at hrest
    rw [Nat.add_assoc, Nat.add_sub_cancel_left, slice_short h hb hlen hfit, Value.encode, hrest]
    rfl
  | longList count len items h hb hcount hread hlen hfit hitems =>
    refine ⟨hfit, ?_⟩
    have hrest := readItems_encode (Nat.le_add_right _ _) hfit hitems
    rw [Nat.add_sub_cancel_left] at hrest
    rw [show offset + 1 + count + len - offset = 1 + (count + len) by
      omega, slice_long h hb hread hlen hfit, Value.encode,
      hrest]
    rfl
termination_by (buf.1.length - offset, 0)

theorem readItems_encode {buf : Uint8Array} {offset stop : ℕ} {items : List Value} (hle : offset ≤ stop)
    (hstop : stop ≤ buf.1.length) (h : readItems buf offset stop = .ok items) :
    slice buf.1 offset (stop - offset) = (encodeItems items).flatten := by
  by_cases hlt : offset < stop
  · obtain ⟨value, next, rest, hreading, hfit, hrest, rfl⟩ := (readItems_cons_iff hlt).1 h
    have hforward := hreading.forward
    have hinside := hreading.inside
    have hfirst := hreading.encode
    have htail := readItems_encode hfit hstop hrest
    rw [encodeItems, List.flatten_cons, ← hfirst.2, ← htail, show stop - offset = (next - offset)
      + (stop - next) by omega,
      slice_add, show offset + (next - offset) = next by omega]
  · rw [readItems_done hlt] at h
    cases h
    rw [show stop - offset = 0 by omega]
    rfl
termination_by (buf.1.length - offset, 1)

end

/-! ## What was encoded is read -/

section Headers

variable {buf : Uint8Array} {offset base : ℕ} {payload : List UInt8}

theorem withPrefix_short (h : payload.length ≤ 55) :
    withPrefix base payload = UInt8.ofNat (base + payload.length) :: payload :=
  if_pos h

theorem withPrefix_long (h : 56 ≤ payload.length) : withPrefix base payload
    = UInt8.ofNat (base + 55 + (encodeLen payload.length).length) :: (encodeLen payload.length ++ payload) :=
  if_neg (by omega)

/-- The header of a short payload that lies in a buffer. -/
theorem header_short (hbase : base ≤ 0xc0) (hlen : payload.length ≤ 55)
    (hfit : offset + (withPrefix base payload).length ≤ buf.1.length)
    (hslice : slice buf.1 offset (withPrefix base payload).length = withPrefix base payload) :
    ∃ h, (buf.1.get ⟨offset, h⟩).toNat = base + payload.length ∧ offset + 1 + payload.length ≤ buf.1.length
      ∧ slice buf.1 (offset + 1) payload.length = payload
      ∧ offset + (withPrefix base payload).length = offset + 1 + payload.length := by
  rw [withPrefix_short hlen, List.length_cons, Nat.add_comm payload.length 1] at *
  have hin : offset < buf.1.length := by omega
  rw [slice_succ _ hin] at hslice
  obtain ⟨hfirst, hrest⟩ := List.cons.inj hslice
  refine ⟨hin, ?_, by omega, hrest, by omega⟩
  rw [hfirst, UInt8.toNat_ofNat']
  omega

/-- The header of a long payload that lies in a buffer. -/
theorem header_long (hbase : base ≤ 0xc0) (hlen : 56 ≤ payload.length)
    (hfit : offset + (withPrefix base payload).length ≤ buf.1.length)
    (hslice : slice buf.1 offset (withPrefix base payload).length = withPrefix base payload) :
    ∃ h count, (buf.1.get ⟨offset, h⟩).toNat = base + 55 + count ∧ count ≤ 8
      ∧ readLen buf (offset + 1) count = .ok payload.length ∧ offset + 1 + count + payload.length ≤ buf.1.length
      ∧ slice buf.1 (offset + 1 + count) payload.length = payload
      ∧ offset + (withPrefix base payload).length = offset + 1 + count + payload.length := by
  have hbuf := buf.2
  have hcount : (encodeLen payload.length).length ≤ 7 := by
    refine length_bigBytes_le ?_
    rw [withPrefix_long hlen, List.length_cons, List.length_append] at hfit
    omega
  have hpos : 0 < (encodeLen payload.length).length := List.length_pos_of_ne_nil (bigBytes_ne_nil (by omega))
  rw [withPrefix_long hlen, List.length_cons, List.length_append, Nat.add_comm _ 1] at *
  have hin : offset < buf.1.length := by omega
  rw [slice_succ _ hin, slice_add] at hslice
  obtain ⟨hfirst, hrest⟩ := List.cons.inj hslice
  obtain ⟨hbytes, hpayload⟩ := List.append_inj hrest (length_slice (by omega))
  refine ⟨hin, (encodeLen payload.length).length, ?_, by omega, ?_, by omega, hpayload, by omega⟩
  · rw [hfirst, UInt8.toNat_ofNat']
    omega
  · refine readLen_ok_iff.2 ⟨hpos, by omega, ?_, ?_⟩
    · rw [hbytes]
      exact noLeadingZero_bigBytes _
    · have hvalue : ofBigEndian (encodeLen payload.length) = payload.length := ofBigEndian_bigBytes _
      rw [hbytes]
      rcases doubleBytes_cases (encodeLen payload.length) with ⟨-, hsame⟩ | ⟨hge, -⟩
      · rw [hsame, hvalue]
      · omega

/-- A byte string that lies in a buffer in its encoding. -/
theorem reading_bytes {bytes : List UInt8} (hfit : offset + (rlpBytes bytes).length ≤ buf.1.length)
    (hslice : slice buf.1 offset (rlpBytes bytes).length = rlpBytes bytes) :
    Reading buf offset (.bytes bytes) (offset + (rlpBytes bytes).length) := by
  by_cases hsingle : ∃ b, bytes = [b] ∧ b < 0x80
  · obtain ⟨b, rfl, hlow⟩ := hsingle
    rw [rlpBytes_single hlow] at *
    have hin : offset < buf.1.length := hfit
    have hfirst : slice buf.1 offset 1 = [buf.1.get ⟨offset, hin⟩] := slice_succ _ hin 0
    have hb : buf.1.get ⟨offset, hin⟩ = b := (List.cons.inj (hfirst.symm.trans hslice)).1
    have hreading : Reading buf offset (.bytes (slice buf.1 offset 1)) (offset + 1) := by
      refine .single hin ?_
      rw [hb]
      exact UInt8.lt_iff_toNat_lt.1 hlow
    have hvalue : slice buf.1 offset 1 = [b] := hslice
    rwa [hvalue] at hreading
  · have hprefixed : rlpBytes bytes = withPrefix 0x80 bytes :=
      rlpBytes_prefixed fun b hbytes hlow => hsingle ⟨b, hbytes, hlow⟩
    rw [hprefixed] at hfit hslice ⊢
    by_cases hlen : bytes.length ≤ 55
    · obtain ⟨hin, hb, hend, hpayload, hnext⟩ := header_short (show 0x80 ≤ 0xc0 by decide) hlen hfit hslice
      rw [hnext]
      have hreading : Reading buf offset (.bytes (slice buf.1 (offset + 1) bytes.length))
        (offset + 1 + bytes.length) := by
        refine .shortString _ hin hb hlen hend ?_
        intro hone b hbyte hlow
        have hhead : bytes.head? = some b := by
          rw [← hpayload, head_slice _ (by omega)]
          exact hbyte
        obtain ⟨first, hfirst⟩ := List.length_eq_one_iff.1 hone
        rw [hfirst] at hhead
        cases hhead
        exact hsingle ⟨_, hfirst, hlow⟩
      rwa [hpayload] at hreading
    · obtain ⟨hin, count, hb, hcount, hread, hend, hpayload, hnext⟩ :=
        header_long (show 0x80 ≤ 0xc0 by decide) (by omega) hfit hslice
      rw [hnext]
      have hreading := Reading.longString count bytes.length hin hb hcount hread (by omega) hend
      rwa [hpayload] at hreading

theorem reading_list {items : List Value} (hfit : offset + (rlpList (encodeItems items)).length ≤ buf.1.length)
    (hslice : slice buf.1 offset (rlpList (encodeItems items)).length = rlpList (encodeItems items))
    (hitems : ∀ start, start + (encodeItems items).flatten.length ≤ buf.1.length →
      slice buf.1 start (encodeItems items).flatten.length = (encodeItems items).flatten →
      readItems buf start (start + (encodeItems items).flatten.length) = .ok items) :
    Reading buf offset (.list items) (offset + (rlpList (encodeItems items)).length) := by
  unfold rlpList at *
  by_cases hlen : (encodeItems items).flatten.length ≤ 55
  · obtain ⟨hin, hb, hend, hpayload, hnext⟩ := header_short (by decide) hlen hfit hslice
    rw [hnext]
    exact .shortList _ items hin hb hlen hend (hitems _ hend hpayload)
  · obtain ⟨hin, count, hb, hcount, hread, hend, hpayload, hnext⟩ := header_long (by decide) (by omega) hfit hslice
    rw [hnext]
    exact .longList count _ items hin hb hcount hread (by omega) hend (hitems _ hend hpayload)

end Headers

theorem withPrefix_pos (base : ℕ) (payload : List UInt8) : 0 < (withPrefix base payload).length := by
  unfold withPrefix
  split_ifs
  · exact Nat.succ_pos _
  · exact Nat.succ_pos _

theorem encode_pos (value : Value) : 0 < value.encode.length := by
  cases value with
  | bytes bytes =>
    rw [Value.encode]
    unfold rlpBytes
    split
    · split_ifs
      · exact Nat.one_pos
      · exact withPrefix_pos _ _
    · exact withPrefix_pos _ _
  | list items =>
    rw [Value.encode]
    exact withPrefix_pos _ _

mutual

/-- **AN ENCODING IS READ AS ITS VALUE**, wherever it lies. -/
theorem reading_of_encode {buf : Uint8Array} {offset : ℕ} : ∀ {value : Value},
    offset + value.encode.length ≤ buf.1.length → slice buf.1 offset value.encode.length = value.encode →
    Reading buf offset value (offset + value.encode.length)
  | .bytes bytes, hfit, hslice => by
    rw [Value.encode] at *
    exact reading_bytes hfit hslice
  | .list items, hfit, hslice => by
    rw [Value.encode] at *
    exact reading_list hfit hslice fun start hend hpayload => readItems_of_encode hend hpayload

theorem readItems_of_encode {buf : Uint8Array} {offset : ℕ} : ∀ {items : List Value},
    offset + (encodeItems items).flatten.length ≤ buf.1.length →
    slice buf.1 offset (encodeItems items).flatten.length = (encodeItems items).flatten →
    readItems buf offset (offset + (encodeItems items).flatten.length) = .ok items
  | [], _, _ => readItems_done (by simp [encodeItems])
  | item :: rest, hfit, hslice => by
    rw [encodeItems, List.flatten_cons, List.length_append] at *
    have hpos := encode_pos item
    rw [slice_add] at hslice
    obtain ⟨hfirst, hrest⟩ := List.append_inj hslice (length_slice (by omega))
    refine (readItems_cons_iff (by omega)).2 ⟨item, _, rest, reading_of_encode (by omega) hfirst, by omega, ?_, rfl⟩
    rw [← Nat.add_assoc]
    exact readItems_of_encode (by omega) hrest

end

theorem slice_all (bytes : List UInt8) : slice bytes 0 bytes.length = bytes := List.take_length

/-- A buffer is accepted as a value when it is the encoding of that value. -/
theorem rlpDecode_ok_iff {buf : Uint8Array} {value : Value} : rlpDecode buf = .ok value ↔ value.encode = buf.1 := by
  unfold rlpDecode
  constructor
  · intro h
    obtain ⟨item, hitem, h⟩ := bind_iff.1 h
    obtain ⟨hnext, h⟩ := ite_error_ok_iff.1 h
    obtain ⟨-, hslice⟩ := (reading_of_ok hitem).encode
    rw [of_not_not hnext, Nat.sub_zero, slice_all] at hslice
    rw [← Except.ok.inj h, hslice]
  · intro h
    have hlength : 0 + value.encode.length = buf.1.length := by rw [Nat.zero_add, h]
    have hreading : Reading buf 0 value (0 + value.encode.length) := by
      refine reading_of_encode (Nat.le_of_eq hlength) ?_
      rw [h, slice_all]
    rw [ok_of_reading hreading, ok_bind]
    exact if_neg (not_not.2 hlength)

/-- **DECODING IS THE EXACT INVERSE OF ENCODING**: what was encoded is decoded, and nothing else is accepted. -/
theorem rlpDecode_inverse : (∀ (value : Value) (h : value.encode.length < 2 ^ 53),
    rlpDecode ⟨value.encode, h⟩ = .ok value)
    ∧ ∀ (buf : Uint8Array) (value : Value), rlpDecode buf = .ok value → buf.1 = value.encode :=
  ⟨fun _ _ => rlpDecode_ok_iff.2 rfl, fun _ _ h => (rlpDecode_ok_iff.1 h).symm⟩

/-- A string in a list in a list, and the empty string. -/
theorem rlpDecode_inverse_sample : rlpDecode ⟨[0xc6, 0xc4, 0x83, 0x64, 0x6f, 0x67, 0x80], by decide⟩
      = .ok (.list [.list [.bytes [0x64, 0x6f, 0x67]], .bytes []]) :=
  rlpDecode_inverse.1 (.list [.list [.bytes [0x64, 0x6f, 0x67]], .bytes []]) (by decide)

end Rlp
