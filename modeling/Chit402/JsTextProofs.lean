import Mathlib.Tactic.Common
import Mathlib.Algebra.GroupWithZero.Nat

/-! # Text operations of the source language

    The string methods the gateway's code leans on, over characters. -/

namespace JsText

/-- White space and line ends, as `String.prototype.trim` takes them. -/
def isTrimmed (c : Char) : Bool :=
  c.toNat ∈ [0x09, 0x0a, 0x0b, 0x0c, 0x0d, 0x20, 0xa0, 0x1680, 0x2028, 0x2029, 0x202f, 0x205f, 0x3000, 0xfeff]
    || (0x2000 ≤ c.toNat && c.toNat ≤ 0x200a)

/-- `String.prototype.trim` -/
def trim (s : List Char) : List Char :=
  ((s.dropWhile isTrimmed).reverse.dropWhile isTrimmed).reverse

def trimmed (s : String) : String := String.ofList (trim s.toList)

/-- The value of `text || null`. -/
def truthy (text : Option String) : Option String := text.filter (· ≠ "")

/-- `String.prototype.toLowerCase` on ASCII text. -/
def lowered (s : String) : List Char := s.toList.map Char.toLower

def isLowerHexDigit (c : Char) : Bool := c.isDigit || ('a' ≤ c && c ≤ 'f')

def isHexDigit (c : Char) : Bool := isLowerHexDigit c || ('A' ≤ c && c ≤ 'F')

/-- `String.prototype.padStart` with one character. -/
def padStart (width : ℕ) (fill : Char) (s : List Char) : List Char :=
  List.replicate (width - s.length) fill ++ s

/-- The length of a string in code units. -/
def length (s : String) : ℕ := (s.toList.map fun c => if c.toNat < 0x10000 then 1 else 2).sum

theorem trim_eq_self {s : List Char} (h : ∀ c ∈ s, isTrimmed c = false) : trim s = s := by
  have hdrop : ∀ l : List Char, (∀ c ∈ l, isTrimmed c = false) → l.dropWhile isTrimmed = l := by
    intro l hl
    cases l with
    | nil => rfl
    | cons c rest => rw [List.dropWhile_cons_of_neg (by simp [hl c (by simp)])]
  unfold trim
  rw [hdrop s h, hdrop s.reverse (fun c hc => h c (List.mem_reverse.1 hc)), List.reverse_reverse]

end JsText
