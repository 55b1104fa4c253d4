import Chit402.AnchorAnswerProofs
import Chit402.NumberTextProofs

/-! # The spelling of an anchor memo

    A memo is a list of fields between colons.  The parser pins every field
    but two to one spelling; the epoch and the previous size go through
    `Number`, which reads more than plain digits.  A parsed record is
    compared with the text it would be written as. -/

namespace AnchorMemo

open AnchorAnswer NumberText

/-- The language as it reads numbers; lowercase is over ASCII. -/
def jsText : Text where
  toLowerCase := asciiText.toLowerCase
  lower_hex := asciiText.lower_hex
  integerOf text := integerOf text.toList

/-! ## The documented form -/

def intText (z : ℤ) : List Char := if z < 0 then '-' :: decimal z.natAbs else decimal z.natAbs

/-- The fields of a record as the format lists them. -/
def memoFields (r : ParsedAnchorMemo) : List (List Char) :=
  let identity := [r.scope.toList, r.day.toList, r.root.toList, r.prev.toList]
  if r.version = 1 then ["chit402".toList, "root".toList, "v1".toList] ++ identity
  else ["chit402".toList, "root".toList, "v2".toList] ++ identity ++ [(r.epoch.map intText).getD [],
    (r.prev_epoch_root.map String.toList).getD [], (r.prev_epoch_size.map intText).getD [],
    (r.bundle_index_hash.map String.toList).getD []]

/-- The memo of a record, the integers in plain decimal. -/
def renderAnchorMemo (r : ParsedAnchorMemo) : String := String.ofList ([':'].intercalate (memoFields r))

/-- The fields of a second version memo that `Number` reads. -/
def numberFields (memo : String) : List (List Char) :=
  match memo.toList.splitOn ':' with
  | [_, _, _, _, _, _, _, epoch, _, size, _] => [epoch, size]
  | _ => []

/-- The plain digits of a double. -/
def Plain (text : List Char) : Prop := ∃ n, text = decimal n ∧ IsDouble n

def PlainMemo (memo : String) : Prop := ∀ text ∈ numberFields memo, Plain text

/-! ## Fields have no colon -/

variable {fields : List (List Char)} {epoch size text : List Char} {r : ParsedAnchorMemo} {memo : String} {js : Text}

theorem colon_of_isScope (h : isScope text = true) : ':' ∉ text := by
  intro hmem
  have hall := List.all_eq_true.mp (Bool.and_eq_true_iff.mp h).2 ':' hmem
  exact absurd hall (by decide)

theorem colon_of_isHex64 (h : isHex64 text = true) : ':' ∉ text := by
  intro hmem
  have hall := List.all_eq_true.mp (Bool.and_eq_true_iff.mp h).2 ':' hmem
  exact absurd hall (by decide)

theorem colon_of_isDay (h : isDay text = true) : ':' ∉ text := by
  unfold isDay at h
  split at h
  · rename_i a b c d e f g k
    have hdigit : ∀ x ∈ [a, b, c, d, e, f, g, k], x.isDigit = true := List.all_eq_true.mp h
    intro hmem
    have hin : ':' ∈ [a, b, c, d, e, f, g, k] := by
      simp only [List.mem_cons, List.not_mem_nil, or_false] at hmem ⊢
      have hdash : ':' ≠ '-' := by decide
      tauto
    exact absurd (hdigit ':' hin) (by decide)
  · cases h

theorem colon_of_intText (z : ℤ) : ':' ∉ intText z := by
  have hdigits : ∀ n, ':' ∉ decimal n := fun n hmem => absurd (isDigit_of_mem_decimal hmem) (by decide)
  rw [intText]
  split
  · intro hmem
    obtain h | h := List.mem_cons.mp hmem
    · exact absurd h (by decide)
    · exact hdigits _ h
  · exact hdigits _

/-! ## What is parsed -/

/-- The four fields both versions have. -/
structure Identity (scope day root prev : List Char) : Prop where
  scope : isScope scope = true
  day : isDay day = true
  root : isHex64 root = true
  prev : isHex64 prev = true

def identityRecord (scope day root prev : List Char) : ParsedAnchorMemo where
  version := 1
  scope := String.ofList scope
  day := String.ofList day
  root := String.ofList root
  prev := String.ofList prev
  epoch := none
  prev_epoch_root := none
  prev_epoch_size := none
  bundle_index_hash := none

theorem memoIdentity_eq_some_iff {scope day root prev : List Char} :
    memoIdentity scope day root prev = some r ↔ Identity scope day root prev
      ∧ r = identityRecord scope day root prev := by
  rw [memoIdentity, Option.ite_none_right_eq_some, Option.some.injEq]
  simp only [Bool.and_eq_true]
  constructor
  · rintro ⟨⟨⟨⟨hscope, hday⟩, hroot⟩, hprev⟩, rfl⟩
    exact ⟨⟨hscope, hday, hroot, hprev⟩, rfl⟩
  · rintro ⟨⟨hscope, hday, hroot, hprev⟩, rfl⟩
    exact ⟨⟨⟨⟨hscope, hday⟩, hroot⟩, hprev⟩, rfl⟩

def epochRecord (scope day root prev prevEpoch bundle : List Char) (epoch size : ℤ) : ParsedAnchorMemo where
  version := 2
  scope := String.ofList scope
  day := String.ofList day
  root := String.ofList root
  prev := String.ofList prev
  epoch := some epoch
  prev_epoch_root := some (String.ofList prevEpoch)
  prev_epoch_size := some size
  bundle_index_hash := some (String.ofList bundle)

/-- What the parser asks of the fields of a second version memo. -/
structure EpochFields (js : Text) (epoch prevEpoch size bundle : List Char) (e s : ℤ) : Prop where
  epoch : js.integerOf (String.ofList epoch) = some e
  size : js.integerOf (String.ofList size) = some s
  one_le : 1 ≤ e
  nonneg : 0 ≤ s
  prevEpoch : isHex64 prevEpoch = true
  bundle : isHex64 bundle = true

/-- A memo is of the first version or of the second. -/
inductive Parses (js : Text) (fields : List (List Char)) : ParsedAnchorMemo → Prop where
  | v1 {scope day root prev : List Char} (hid : Identity scope day root prev)
      (hfields : fields = ["chit402".toList, "root".toList, "v1".toList, scope, day, root, prev]) :
      Parses js fields (identityRecord scope day root prev)
  | v2 {scope day root prev epoch prevEpoch size bundle : List Char} {e s : ℤ} (hid : Identity scope day root prev)
      (hepoch : EpochFields js epoch prevEpoch size bundle e s)
      (hfields : fields = ["chit402".toList, "root".toList, "v2".toList, scope, day, root, prev, epoch, prevEpoch, size,
        bundle]) :
      Parses js fields (epochRecord scope day root prev prevEpoch bundle e s)

theorem parseAnchorMemo_eq_some_iff : parseAnchorMemo js memo = some r ↔ Parses js (memo.toList.splitOn ':') r := by
  rw [parseAnchorMemo]
  constructor
  · intro h
    split at h
    · rename_i mark kind version scope day root prev hsplit
      obtain ⟨⟨rfl, rfl, rfl⟩, hbase⟩ := Option.ite_none_right_eq_some.mp h
      obtain ⟨hid, rfl⟩ := memoIdentity_eq_some_iff.mp hbase
      exact .v1 hid hsplit
    · rename_i mark kind version scope day root prev epoch prevEpoch size bundle hsplit
      obtain ⟨⟨rfl, rfl, rfl⟩, hread⟩ := Option.ite_none_right_eq_some.mp h
      cases hbase : memoIdentity scope day root prev with
      | none =>
        rw [hbase] at hread
        cases hread
      | some base =>
        cases he : js.integerOf (String.ofList epoch) with
        | none =>
          rw [hbase, he] at hread
          cases hread
        | some e =>
          cases hs : js.integerOf (String.ofList size) with
          | none =>
            rw [hbase, he, hs] at hread
            cases hread
          | some s =>
            rw [hbase, he, hs] at hread
            dsimp only at hread
            obtain ⟨hid, rfl⟩ := memoIdentity_eq_some_iff.mp hbase
            obtain ⟨⟨hone, hprev, hbundle, hsize⟩, hrecord⟩ := Option.ite_none_right_eq_some.mp hread
            cases hrecord
            exact .v2 hid ⟨he, hs, hone, hsize, hprev, hbundle⟩ hsplit
    · cases h
  · intro h
    cases h with
    | v1 hid hfields =>
      rw [hfields]
      dsimp only
      rw [if_pos ⟨rfl, rfl, rfl⟩]
      exact memoIdentity_eq_some_iff.mpr ⟨hid, rfl⟩
    | v2 hid hepoch hfields =>
      rw [hfields]
      dsimp only
      rw [if_pos ⟨rfl, rfl, rfl⟩, memoIdentity_eq_some_iff.mpr ⟨hid, rfl⟩, hepoch.epoch, hepoch.size]
      exact if_pos ⟨hepoch.one_le, hepoch.prevEpoch, hepoch.bundle, hepoch.nonneg⟩

/-! ## What is written -/

theorem intText_natCast (n : ℕ) : intText (n : ℤ) = decimal n := by
  rw [intText, if_neg (by omega), Int.natAbs_natCast]

/-- A number that was read is written as its text exactly when that is the plain digits of a double. -/
theorem intText_eq_iff {z : ℤ} (h : integerOf text = some z) (hz : 0 ≤ z) : text = intText z ↔ Plain text := by
  obtain ⟨n, rfl⟩ := Int.eq_ofNat_of_zero_le hz
  rw [intText_natCast]
  constructor
  · intro htext
    refine ⟨n, htext, (integerOf_decimal_iff n).mp ?_⟩
    rw [← htext]
    exact h
  · rintro ⟨k, rfl, hk⟩
    have hread : integerOf (decimal k) = some (k : ℤ) := (integerOf_decimal_iff k).mpr hk
    rw [hread, Option.some.injEq] at h
    rw [Int.natCast_inj.mp h]

theorem memoFields_identity (scope day root prev : List Char) : memoFields (identityRecord scope day root prev)
      = ["chit402".toList, "root".toList, "v1".toList, scope, day, root, prev] := by
  simp [memoFields, identityRecord]

theorem memoFields_epoch (scope day root prev prevEpoch bundle : List Char) (epoch size : ℤ) :
    memoFields (epochRecord scope day root prev prevEpoch bundle epoch size)
      = ["chit402".toList, "root".toList, "v2".toList, scope, day, root, prev, intText epoch, prevEpoch, intText size,
        bundle] := by
  simp [memoFields, epochRecord]

theorem memoFields_colon (h : Parses js fields r) : ∀ l ∈ memoFields r, ':' ∉ l := by
  have hidentity : ∀ {scope day root prev : List Char}, Identity scope day root prev →
      ∀ l ∈ [scope, day, root, prev], ':' ∉ l := by
    intro scope day root prev hid
    simp only [List.forall_mem_cons, List.not_mem_nil, false_implies, implies_true, and_true]
    exact ⟨colon_of_isScope hid.scope, colon_of_isDay hid.day, colon_of_isHex64 hid.root, colon_of_isHex64 hid.prev⟩
  cases h with
  | v1 hid hfields =>
    rw [memoFields_identity]
    have hid4 := hidentity hid
    simp only [List.forall_mem_cons, List.not_mem_nil, false_implies, implies_true, and_true] at hid4 ⊢
    exact ⟨by decide, by decide, by decide, hid4.1, hid4.2.1, hid4.2.2.1, hid4.2.2.2⟩
  | v2 hid hepoch hfields =>
    rw [memoFields_epoch]
    have hid4 := hidentity hid
    simp only [List.forall_mem_cons, List.not_mem_nil, false_implies, implies_true, and_true] at hid4 ⊢
    exact ⟨by decide, by decide, by decide, hid4.1, hid4.2.1, hid4.2.2.1, hid4.2.2.2, colon_of_intText _,
      colon_of_isHex64 hepoch.prevEpoch, colon_of_intText _, colon_of_isHex64 hepoch.bundle⟩

theorem memoFields_ne_nil (r : ParsedAnchorMemo) : memoFields r ≠ [] := by
  rw [memoFields]
  split <;> exact List.cons_ne_nil _ _

theorem splitOn_render (h : Parses js fields r) : (renderAnchorMemo r).toList.splitOn ':' = memoFields r := by
  rw [renderAnchorMemo, String.toList_ofList, List.splitOn_intercalate ':' (memoFields_colon h) (memoFields_ne_nil r)]

theorem render_eq_iff (h : Parses js (memo.toList.splitOn ':') r) :
    renderAnchorMemo r = memo ↔ memo.toList.splitOn ':' = memoFields r := by
  constructor
  · intro hmemo
    rw [← splitOn_render h, hmemo]
  · intro hfields
    rw [renderAnchorMemo, ← hfields, List.intercalate_splitOn, String.ofList_toList]

/-- **SPELLING**: a parsed memo is the one its record is rendered as exactly when both numbers
    are the plain digits of a double. -/
theorem render_eq_iff_plain (h : parseAnchorMemo jsText memo = some r) :
    renderAnchorMemo r = memo ↔ PlainMemo memo := by
  have hparses := parseAnchorMemo_eq_some_iff.mp h
  rw [render_eq_iff hparses]
  generalize hsplit : memo.toList.splitOn ':' = fields at hparses
  cases hparses with
  | v1 hid hfields =>
    have hnone : numberFields memo = [] := by
      rw [numberFields, hsplit, hfields]
    rw [PlainMemo, hnone, hfields, memoFields_identity]
    exact iff_of_true rfl fun _ hmem => nomatch hmem
  | @v2 scope day root prev epoch prevEpoch size bundle e s hid hepoch hfields =>
    have htwo : numberFields memo = [epoch, size] := by
      rw [numberFields, hsplit, hfields]
    have he : integerOf epoch = some e := by
      have hread : integerOf (String.ofList epoch).toList = some e := hepoch.epoch
      rwa [String.toList_ofList] at hread
    have hs : integerOf size = some s := by
      have hread : integerOf (String.ofList size).toList = some s := hepoch.size
      rwa [String.toList_ofList] at hread
    rw [PlainMemo, htwo, hfields, memoFields_epoch]
    simp only [List.forall_mem_cons, List.not_mem_nil, false_implies, implies_true, and_true, List.cons.injEq, true_and]
    exact and_congr (intText_eq_iff he (by have := hepoch.one_le; omega)) (intText_eq_iff hs hepoch.nonneg)

/-! ## Round trip -/

/-- A record the format can hold: the integers are numbers of the language. -/
inductive Valid : ParsedAnchorMemo → Prop where
  | v1 {scope day root prev : List Char} (hid : Identity scope day root prev) :
      Valid (identityRecord scope day root prev)
  | v2 {scope day root prev prevEpoch bundle : List Char} {e s : ℕ} (hid : Identity scope day root prev)
      (hprev : isHex64 prevEpoch = true) (hbundle : isHex64 bundle = true) (one_le : 1 ≤ e) (he : IsDouble e)
      (hs : IsDouble s) :
      Valid (epochRecord scope day root prev prevEpoch bundle e s)

theorem integerOf_text {n : ℕ} (h : IsDouble n) : jsText.integerOf (String.ofList (decimal n)) = some (n : ℤ) := by
  have hread : integerOf (decimal n) = some (n : ℤ) := (integerOf_decimal_iff n).mpr h
  rw [← hread]
  exact congrArg integerOf String.toList_ofList

theorem parses_memoFields (h : Valid r) : Parses jsText (memoFields r) r := by
  cases h with
  | v1 hid =>
    rw [memoFields_identity]
    exact .v1 hid rfl
  | v2 hid hprev hbundle one_le he hs =>
    rw [memoFields_epoch, intText_natCast, intText_natCast]
    exact .v2 hid ⟨integerOf_text he, integerOf_text hs, by omega, by omega, hprev, hbundle⟩ rfl

/-- **ROUND TRIP**: a rendered record parses back to itself. -/
theorem parse_render (h : Valid r) : parseAnchorMemo jsText (renderAnchorMemo r) = some r := by
  have hparses := parses_memoFields h
  rw [parseAnchorMemo_eq_some_iff, splitOn_render hparses]
  exact hparses

theorem plain_unique {other : String} (h : parseAnchorMemo jsText memo = some r)
    (hother : parseAnchorMemo jsText other = some r) (hplain : PlainMemo memo) (hplainOther : PlainMemo other) :
    memo = other := by
  have hmemo := (render_eq_iff_plain h).mpr hplain
  have heq := (render_eq_iff_plain hother).mpr hplainOther
  rw [← hmemo, heq]

/-! ## One spelling -/

/-- **ONE SPELLING**: a parsed memo is what its record is written as exactly when both its
    numbers are plain, the plain memo of a record is unique, and what is written is read back. -/
theorem memo_spelling {memo : String} {r : ParsedAnchorMemo} (h : parseAnchorMemo jsText memo = some r) :
    (renderAnchorMemo r = memo ↔ PlainMemo memo)
    ∧ (∀ other, parseAnchorMemo jsText other = some r → PlainMemo memo → PlainMemo other → memo = other)
    ∧ ∀ record, Valid record → parseAnchorMemo jsText (renderAnchorMemo record) = some record :=
  ⟨render_eq_iff_plain h, fun _ hother hplain hplainOther => plain_unique h hother hplain hplainOther,
    fun _ hvalid => parse_render hvalid⟩

def sampleHash : List Char := List.replicate 64 'a'

def sampleFields (epoch size : List Char) : List (List Char) :=
  ["chit402".toList, "root".toList, "v2".toList, "global".toList, "2026-10-03".toList, sampleHash, sampleHash, epoch,
    sampleHash, size, sampleHash]

/-- A second version memo with these numbers. -/
def sampleMemo (epoch size : List Char) : String := String.ofList ([':'].intercalate (sampleFields epoch size))

def sampleRecord (epoch size : ℤ) : ParsedAnchorMemo :=
  epochRecord "global".toList "2026-10-03".toList sampleHash sampleHash sampleHash sampleHash epoch size

theorem sampleMemo_splitOn (h : ∀ l ∈ sampleFields epoch size, ':' ∉ l) :
    (sampleMemo epoch size).toList.splitOn ':' = sampleFields epoch size := by
  rw [sampleMemo, String.toList_ofList, List.splitOn_intercalate ':' h (List.cons_ne_nil _ _)]

theorem sampleMemo_parses {e s : ℤ} (h : ∀ l ∈ sampleFields epoch size, ':' ∉ l) (hepoch : integerOf epoch = some e)
    (hsize : integerOf size = some s) (one_le : 1 ≤ e) (nonneg : 0 ≤ s) :
    parseAnchorMemo jsText (sampleMemo epoch size) = some (sampleRecord e s) := by
  have hread : ∀ text, jsText.integerOf (String.ofList text) = integerOf text := fun text =>
    congrArg integerOf String.toList_ofList
  rw [parseAnchorMemo_eq_some_iff, sampleMemo_splitOn h]
  exact .v2 ⟨by decide, by decide, by decide, by decide⟩
    ⟨(hread epoch).trans hepoch, (hread size).trans hsize, one_le, nonneg, by decide, by decide⟩ rfl

theorem memo_spelling_sample : renderAnchorMemo (sampleRecord 12 340) = sampleMemo (decimal 12) (decimal 340) := by
  have htwelve : IsDouble 12 := ⟨small_lt_limit (by omega), 12, 0, by omega, rfl⟩
  have hsize : IsDouble 340 := ⟨small_lt_limit (by omega), 340, 0, by omega, rfl⟩
  have hcolon : ∀ l ∈ sampleFields (decimal 12) (decimal 340), ':' ∉ l := by decide
  have hparse := sampleMemo_parses hcolon ((integerOf_decimal_iff 12).mpr htwelve)
    ((integerOf_decimal_iff 340).mpr hsize) (by decide) (by decide)
  refine (memo_spelling hparse).1.mpr ?_
  rw [PlainMemo, numberFields, sampleMemo_splitOn hcolon]
  simp only [sampleFields, List.forall_mem_cons, List.not_mem_nil, false_implies, implies_true, and_true]
  exact ⟨⟨12, rfl, htwelve⟩, ⟨340, rfl, hsize⟩⟩

/-- **RESPELLED**: an empty size reads as zero and a padded epoch as its value, so both
    memos give one record, and that record is written as neither. -/
theorem memo_respelled : parseAnchorMemo jsText (sampleMemo ['1'] []) = some (sampleRecord 1 0)
    ∧ parseAnchorMemo jsText (sampleMemo ['0', '1'] ['0']) = some (sampleRecord 1 0)
    ∧ sampleMemo ['1'] [] ≠ sampleMemo ['0', '1'] ['0'] ∧ renderAnchorMemo (sampleRecord 1 0) ≠ sampleMemo ['1'] []
    ∧ renderAnchorMemo (sampleRecord 1 0) ≠ sampleMemo ['0', '1'] ['0'] := by
  have hempty : ∀ l ∈ sampleFields ['1'] [], ':' ∉ l := by decide
  have hpadded : ∀ l ∈ sampleFields ['0', '1'] ['0'], ':' ∉ l := by decide
  have hone := sampleMemo_parses hempty (e := 1) (s := 0) (by decide +kernel) (by decide +kernel)
    (by decide) (by decide)
  have htwo := sampleMemo_parses hpadded (e := 1) (s := 0) (by decide +kernel) (by decide +kernel)
    (by decide) (by decide)
  refine ⟨hone, htwo, ?_, ?_, ?_⟩
  · intro heq
    have hfields := congrArg (fun memo : String => memo.toList.splitOn ':') heq
    rw [sampleMemo_splitOn hempty, sampleMemo_splitOn hpadded] at hfields
    exact absurd hfields (by decide)
  · rw [Ne, render_eq_iff (parseAnchorMemo_eq_some_iff.mp hone), sampleMemo_splitOn hempty,
      sampleRecord, memoFields_epoch]
    decide
  · rw [Ne, render_eq_iff (parseAnchorMemo_eq_some_iff.mp htwo), sampleMemo_splitOn hpadded,
      sampleRecord, memoFields_epoch]
    decide

end AnchorMemo
