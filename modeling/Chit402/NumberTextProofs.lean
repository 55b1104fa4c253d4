import Mathlib.Data.List.TakeWhile
import Mathlib.Data.Nat.Log
import Mathlib.Algebra.Order.Ring.Nat

/-! # Numbers of a text

    `Number(text)` of the source language, as far as its value is an
    integer: the grammar of numeric texts, and the rounding of an exact
    value to a double, ties to even.  A text of plain digits keeps its
    value exactly when that is a double. -/

namespace NumberText

/-! ## Rounding -/

/-- `a / b` rounded to an integer, ties to even. -/
def roundQuot (a b : ℕ) : ℕ :=
  if 2 * (a % b) < b then a / b
  else if b < 2 * (a % b) then a / b + 1
  else if a / b % 2 = 0 then a / b
  else a / b + 1

/-- The floor of the logarithm of `a / b` to base two. -/
def logQuot (a b : ℕ) : ℤ :=
  let l : ℤ := (Nat.log 2 a : ℤ) - Nat.log 2 b
  if a * 2 ^ (-l).toNat < b * 2 ^ l.toNat then l - 1 else l

/-- The exponent of the last of the 53 bits of `a / b`. -/
def exponentOf (a b : ℕ) : ℤ := max (logQuot a b - 52) (-1074)

/-- What rounds to this or more is infinite. -/
def limit : ℕ := 2 ^ 1024

/-- The double nearest to `a / b`, when that is an integer. -/
def integerDouble (a b : ℕ) : Option ℕ :=
  if a = 0 then some 0
  else
    let e := exponentOf a b
    if 0 ≤ e then
      let n := roundQuot a (b * 2 ^ e.toNat) * 2 ^ e.toNat
      if n < limit then some n else none
    else
      let m := roundQuot (a * 2 ^ (-e).toNat) b
      if m % 2 ^ (-e).toNat = 0 then some (m / 2 ^ (-e).toNat) else none

def IsDouble (n : ℕ) : Prop := n < limit ∧ ∃ m k, m < 2 ^ 53 ∧ n = m * 2 ^ k

theorem limit_pos : 0 < limit := by
  delta limit
  exact pow_pos Nat.two_pos _

variable {c : Char} {p : Char → Bool} {s : List Char} {n : ℕ}

theorem small_lt_limit (h : n < 2 ^ 53) : n < limit := by
  delta limit
  exact lt_of_lt_of_le h (pow_le_pow_right₀ (by omega) (by omega))

theorem roundQuot_mul {q b : ℕ} (hb : 0 < b) : roundQuot (q * b) b = q := by
  rw [roundQuot, Nat.mul_mod_left, Nat.mul_div_cancel q hb, if_pos (by omega)]

theorem logQuot_one (hn : n ≠ 0) : logQuot n 1 = Nat.log 2 n := by
  have hlog : (Nat.log 2 n : ℤ) - (Nat.log 2 1 : ℤ) = Nat.log 2 n := by
    rw [Nat.log_one_right]
    omega
  rw [logQuot, hlog, Int.toNat_natCast, Int.toNat_of_nonpos (by omega), Nat.pow_zero, Nat.mul_one, Nat.one_mul,
    if_neg (Nat.not_lt.mpr (Nat.pow_log_le_self 2 hn))]

theorem exponentOf_one (hn : n ≠ 0) : exponentOf n 1 = (Nat.log 2 n : ℤ) - 52 := by
  rw [exponentOf, logQuot_one hn]
  omega

theorem IsDouble.dvd (h : IsDouble n) (hn : n ≠ 0) (hlog : 52 ≤ Nat.log 2 n) : 2 ^ (Nat.log 2 n - 52) ∣ n := by
  obtain ⟨-, m, k, hm, rfl⟩ := h
  have hlow := Nat.pow_log_le_self 2 hn
  have hbits : Nat.log 2 (m * 2 ^ k) < 53 + k := by
    refine (Nat.pow_lt_pow_iff_right (by omega : 1 < 2)).mp (Nat.lt_of_le_of_lt hlow ?_)
    rw [Nat.pow_add]
    exact Nat.mul_lt_mul_of_pos_right hm (Nat.pow_pos (by omega))
  exact Dvd.dvd.mul_left (Nat.pow_dvd_pow 2 (by omega)) m

/-- An integer keeps its value exactly when it is a double. -/
theorem integerDouble_one_iff (n : ℕ) : integerDouble n 1 = some n ↔ IsDouble n := by
  by_cases hn : n = 0
  · rw [hn, integerDouble, if_pos rfl]
    exact iff_of_true rfl ⟨limit_pos, 0, 0, Nat.two_pow_pos 53, rfl⟩
  have hhigh : n < 2 ^ (Nat.log 2 n + 1) := Nat.lt_pow_succ_log_self (by omega) n
  rw [integerDouble, if_neg hn, exponentOf_one hn]
  dsimp only
  by_cases hlog : 52 ≤ Nat.log 2 n
  · have he : ((Nat.log 2 n : ℤ) - 52).toNat = Nat.log 2 n - 52 := by omega
    rw [if_pos (by omega), he, Nat.one_mul]
    have hpos : 0 < 2 ^ (Nat.log 2 n - 52) := Nat.pow_pos (by omega)
    constructor
    · intro h
      obtain ⟨hbig, h⟩ := (Option.ite_none_right_eq_some).mp h
      refine ⟨(Option.some.inj h) ▸ hbig, _, Nat.log 2 n - 52, ?_, (Option.some.inj h).symm⟩
      rw [← Nat.mul_lt_mul_right hpos, Option.some.inj h, ← Nat.pow_add,
        show 53 + (Nat.log 2 n - 52) = Nat.log 2 n + 1 by omega]
      exact hhigh
    · intro h
      obtain ⟨q, hq⟩ := h.dvd hn hlog
      have hexact : roundQuot n (2 ^ (Nat.log 2 n - 52)) * 2 ^ (Nat.log 2 n - 52) = n := by
        have hround : roundQuot n (2 ^ (Nat.log 2 n - 52)) = q := by
          conv_lhs => arg 1; rw [hq, Nat.mul_comm]
          exact roundQuot_mul hpos
        rw [hround, Nat.mul_comm]
        exact hq.symm
      rw [hexact, if_pos h.1]
  · rw [if_neg (by omega)]
    have hround : roundQuot (n * 2 ^ (-((Nat.log 2 n : ℤ) - 52)).toNat) 1 = n
      * 2 ^ (-((Nat.log 2 n : ℤ) - 52)).toNat := by
      have h := @roundQuot_mul (n * 2 ^ (-((Nat.log 2 n : ℤ) - 52)).toNat) 1 (by omega)
      rwa [Nat.mul_one] at h
    have hsmall : n < 2 ^ 53 := Nat.lt_of_lt_of_le hhigh (Nat.pow_le_pow_right (by omega) (by omega))
    rw [hround, Nat.mul_mod_left, if_pos rfl, Nat.mul_div_cancel _ (Nat.pow_pos (by omega))]
    refine ⟨fun _ => ⟨small_lt_limit hsmall, n, 0, hsmall, ?_⟩,
      fun _ => rfl⟩
    rw [Nat.pow_zero, Nat.mul_one]

/-! ## The grammar -/

/-- White space and line ends. -/
def isWhite (c : Char) : Bool :=
  [0x09, 0x0a, 0x0b, 0x0c, 0x0d, 0x20, 0xa0, 0x1680, 0x2028, 0x2029, 0x202f, 0x205f, 0x3000, 0xfeff].contains c.toNat
    || 0x2000 ≤ c.toNat && c.toNat ≤ 0x200a

def trim (text : List Char) : List Char := ((text.dropWhile isWhite).reverse.dropWhile isWhite).reverse

/-- The value of a digit below the base, in either case. -/
def digitOf (base : ℕ) (c : Char) : Option ℕ :=
  let d := if c.isDigit then some (c.toNat - 48)
    else if 'a' ≤ c ∧ c ≤ 'z' then some (c.toNat - 87)
    else if 'A' ≤ c ∧ c ≤ 'Z' then some (c.toNat - 55)
    else none
  d.filter (· < base)

def digitsOf (base : ℕ) (text : List Char) : Option ℕ :=
  if text = [] then none
  else text.foldl (fun n c => n.bind fun n => (digitOf base c).map fun d => base * n + d) (some 0)

def exponentText : List Char → Option ℤ
  | [] => some 0
  | _ :: '+' :: ds => (digitsOf 10 ds).map Int.ofNat
  | _ :: '-' :: ds => (digitsOf 10 ds).map fun n : ℕ => -(n : ℤ)
  | _ :: ds => (digitsOf 10 ds).map Int.ofNat

/-- The digits of a mantissa, and how many stand behind the point. -/
def mantissaText (text : List Char) : Option (ℕ × ℕ) :=
  let whole := text.takeWhile (· ≠ '.')
  let fraction := (text.dropWhile (· ≠ '.')).tail
  (digitsOf 10 (whole ++ fraction)).map fun n => (n, fraction.length)

/-- A decimal without a sign; `Infinity` is no integer. -/
def unsignedOf (text : List Char) : Option ℕ :=
  let isExponent := fun c : Char => c ≠ 'e' ∧ c ≠ 'E'
  match mantissaText (text.takeWhile isExponent), exponentText (text.dropWhile isExponent) with
  | some (n, places), some e =>
    let scale := e - places
    integerDouble (n * 10 ^ scale.toNat) (10 ^ (-scale).toNat)
  | _, _ => none

/-- `Number(text)`, when that is an integer. -/
def integerOf (text : List Char) : Option ℤ :=
  match trim text with
  | [] => some 0
  | '0' :: 'x' :: ds | '0' :: 'X' :: ds => ((digitsOf 16 ds).bind fun n => integerDouble n 1).map Int.ofNat
  | '0' :: 'o' :: ds | '0' :: 'O' :: ds => ((digitsOf 8 ds).bind fun n => integerDouble n 1).map Int.ofNat
  | '0' :: 'b' :: ds | '0' :: 'B' :: ds => ((digitsOf 2 ds).bind fun n => integerDouble n 1).map Int.ofNat
  | '-' :: s => (unsignedOf s).map fun n : ℕ => -(n : ℤ)
  | '+' :: s => (unsignedOf s).map Int.ofNat
  | s => (unsignedOf s).map Int.ofNat

example : integerOf " 1e2 ".toList = some 100 ∧ integerOf "0x1F".toList = some 31 ∧ integerOf "1.5".toList = none
    ∧ integerOf "9007199254740993".toList = some 9007199254740992 := by
  decide +kernel

/-! ## Plain decimals -/

/-- The digits of a natural number, with no leading zero. -/
def decimal (n : ℕ) : List Char := Nat.toDigits 10 n

theorem isDigit_of_mem_decimal (h : c ∈ decimal n) : c.isDigit = true :=
  Nat.isDigit_of_mem_toDigits (by omega) (by omega) h

theorem decimal_ne_nil (n : ℕ) : decimal n ≠ [] := Nat.toDigits_ne_nil

theorem isDigit_bounds (h : c.isDigit = true) : 48 ≤ c.toNat ∧ c.toNat ≤ 57 := by
  have hb := Bool.and_eq_true_iff.mp h
  exact ⟨UInt32.le_iff_toNat_le.mp (of_decide_eq_true hb.1), UInt32.le_iff_toNat_le.mp (of_decide_eq_true hb.2)⟩

theorem digit_ne {d : Char} (h : c.isDigit = true) (hd : d.isDigit = false) : c ≠ d := by
  rintro rfl
  exact Bool.false_ne_true (hd.symm.trans h)

theorem isWhite_of_isDigit (h : c.isDigit = true) : isWhite c = false := by
  obtain ⟨hlow, hhigh⟩ := isDigit_bounds h
  rw [isWhite, Bool.or_eq_false_iff]
  constructor
  · rw [Bool.eq_false_iff]
    intro hmem
    rw [List.contains_iff_mem] at hmem
    simp only [List.mem_cons, List.not_mem_nil, or_false] at hmem
    omega
  · rw [Bool.and_eq_false_iff]
    exact .inl (decide_eq_false (by omega))

theorem dropWhile_digits (h : ∀ c ∈ s, p c = false) : s.dropWhile p = s := by
  cases s with
  | nil => rfl
  | cons c s => exact List.dropWhile_cons_of_neg (Bool.eq_false_iff.mp (h c List.mem_cons_self))

theorem trim_digits (h : ∀ c ∈ s, c.isDigit = true) : trim s = s := by
  have hwhite : ∀ c ∈ s, isWhite c = false := fun c hc => isWhite_of_isDigit (h c hc)
  rw [trim, dropWhile_digits hwhite, dropWhile_digits fun c hc => hwhite c (List.mem_reverse.mp hc),
    List.reverse_reverse]

theorem digitOf_digit (h : c.isDigit = true) : digitOf 10 c = some (c.toNat - 48) := by
  obtain ⟨hlow, hhigh⟩ := isDigit_bounds h
  rw [digitOf, if_pos h]
  exact Option.filter_eq_some_iff.mpr ⟨rfl, decide_eq_true (by omega)⟩

/-- Digits have the value the library gives them. -/
theorem digitsOf_digits (hs : s ≠ []) (h : ∀ c ∈ s, c.isDigit = true) :
    digitsOf 10 s = some (Nat.ofDigitChars 10 s 0) := by
  have hfold : ∀ (s : List Char) (n : ℕ), (∀ c ∈ s, c.isDigit = true) →
      s.foldl (fun n c => n.bind fun n => (digitOf 10 c).map fun d => 10 * n + d) (some n)
        = some (Nat.ofDigitChars 10 s n) := by
    intro s
    induction s with
    | nil => exact fun _ _ => rfl
    | cons c s ih =>
      intro n hc
      rw [List.foldl_cons, Option.bind_some, digitOf_digit (hc c List.mem_cons_self), Option.map_some,
        ih _ fun d hd => hc d (List.mem_cons_of_mem _ hd), Nat.ofDigitChars_cons]
      rfl
  rw [digitsOf, if_neg hs, hfold s 0 h]

theorem takeWhile_digits (h : ∀ c ∈ s, p c = true) : s.takeWhile p = s :=
  List.takeWhile_eq_self_iff.mpr h

theorem unsignedOf_decimal (n : ℕ) : unsignedOf (decimal n) = integerDouble n 1 := by
  have hdigit : ∀ c ∈ decimal n, c.isDigit = true := fun c => isDigit_of_mem_decimal
  have hexp : ∀ c ∈ decimal n, decide (c ≠ 'e' ∧ c ≠ 'E') = true := fun c hc =>
    decide_eq_true ⟨digit_ne (hdigit c hc) rfl, digit_ne (hdigit c hc) rfl⟩
  have hpoint : ∀ c ∈ decimal n, decide (c ≠ '.') = true := fun c hc => decide_eq_true (digit_ne (hdigit c hc) rfl)
  have hvalue : digitsOf 10 (decimal n) = some n := by
    rw [digitsOf_digits (decimal_ne_nil n) hdigit]
    exact congrArg some Nat.ofDigitChars_ten_toDigits
  have hmantissa : mantissaText (decimal n) = some (n, 0) := by
    rw [mantissaText, takeWhile_digits hpoint, List.dropWhile_eq_nil_iff.mpr hpoint, List.tail_nil,
      List.append_nil, hvalue]
    rfl
  rw [unsignedOf]
  dsimp only
  rw [takeWhile_digits hexp, List.dropWhile_eq_nil_iff.mpr hexp, hmantissa]
  show integerDouble (n * 10 ^ 0) (10 ^ 0) = _
  rw [Nat.pow_zero, Nat.mul_one]

/-- Plain digits are read as one decimal. -/
theorem integerOf_decimal (n : ℕ) : integerOf (decimal n) = (integerDouble n 1).map Int.ofNat := by
  have hdigit : ∀ c ∈ decimal n, c.isDigit = true := fun c => isDigit_of_mem_decimal
  have hno : ∀ c : Char, c.isDigit = false → c ∉ decimal n := fun c hc hmem =>
    Bool.false_ne_true (hc.symm.trans (hdigit c hmem))
  have second : ∀ {c d : Char} {ds : List Char}, decimal n = d :: c :: ds → c ∈ decimal n := by
    intro c d ds h
    rw [h]
    exact List.mem_cons_of_mem _ List.mem_cons_self
  have first : ∀ {c : Char} {ds : List Char}, decimal n = c :: ds → c ∈ decimal n := by
    intro c ds h
    rw [h]
    exact List.mem_cons_self
  rw [← unsignedOf_decimal, integerOf, trim_digits hdigit]
  split
  case h_1 hnil => exact absurd hnil (decimal_ne_nil n)
  case h_2 heq => exact absurd (second heq) (hno 'x' rfl)
  case h_3 heq => exact absurd (second heq) (hno 'X' rfl)
  case h_4 heq => exact absurd (second heq) (hno 'o' rfl)
  case h_5 heq => exact absurd (second heq) (hno 'O' rfl)
  case h_6 heq => exact absurd (second heq) (hno 'b' rfl)
  case h_7 heq => exact absurd (second heq) (hno 'B' rfl)
  case h_8 heq => exact absurd (first heq) (hno '-' rfl)
  case h_9 heq => exact absurd (first heq) (hno '+' rfl)
  case h_10 => rfl

theorem integerOf_decimal_iff (n : ℕ) : integerOf (decimal n) = some (n : ℤ) ↔ IsDouble n := by
  rw [integerOf_decimal, ← integerDouble_one_iff]
  cases integerDouble n 1 with
  | none => exact ⟨fun h => (nomatch h), fun h => (nomatch h)⟩
  | some k =>
    rw [Option.map_some, Option.some.injEq, Option.some.injEq]
    exact Int.natCast_inj

end NumberText
