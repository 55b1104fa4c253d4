import Mathlib.Tactic.Common
import Mathlib.Algebra.Group.Int.Defs

/-! # Values of the source language

    What a caller can hand to a checked function: strings as their UTF-16
    code units, numbers as far as the checks can tell them apart, byte
    arrays, and objects by their own properties.  Last come the two text
    coders, from code units to UTF-8 and the decoder's test of UTF-8. -/

namespace JsValue

/-- A number: an integer, negative zero, or any other (fractions, infinities, `NaN`). -/
inductive Number where
  | int (z : ℤ)
  | negZero
  | other
deriving DecidableEq

/-- A value. `other` is a function or a symbol. -/
inductive Js where
  | undefined
  | null
  | bool (b : Bool)
  | number (n : Number)
  | bigint (z : ℤ)
  | string (units : List UInt16)
  | bytes (b : List UInt8)
  | array (items : List Js)
  | object (fields : List (String × Js))
  | other

abbrev Obj := List (String × Js)

/-- The own properties of an object that is not an array; a byte array has its indices. -/
def asObject : Js → Option Obj
  | .object fields => some fields
  | .bytes b => some (b.zipIdx.map fun (x, i) => (toString i, .number (.int x.toNat)))
  | _ => none

/-- The property `name`. -/
def get (o : Obj) (name : String) : Js := (o.lookup name).getD .undefined

def MAX_SAFE_INTEGER : ℤ := 2 ^ 53 - 1

/-- `Number.isSafeInteger` of an integer. -/
def isSafeInteger (z : ℤ) : Bool := -MAX_SAFE_INTEGER ≤ z && z ≤ MAX_SAFE_INTEGER

theorem get_cons_self (name : String) (v : Js) (rest : Obj) : get ((name, v) :: rest) name = v := by
  rw [get, List.lookup_cons, beq_self_eq_true]
  rfl

theorem get_cons_of_ne {key name : String} (h : name ≠ key) (v : Js) (rest : Obj) :
    get ((key, v) :: rest) name = get rest name := by
  rw [get, List.lookup_cons, beq_false_of_ne h]
  rfl

/-! ## Text -/

/-- The code units of a text below U+10000. -/
def units (s : String) : List UInt16 := s.toList.map fun c => UInt16.ofNat c.toNat

/-- Code units as characters, for the tests of single characters: a surrogate
    is no character and reads as NUL. -/
def chars (s : List UInt16) : List Char := s.map fun u => Char.ofNat u.toNat

def isHighSurrogate (u : UInt16) : Bool := 0xd800 ≤ u && u ≤ 0xdbff

def isLowSurrogate (u : UInt16) : Bool := 0xdc00 ≤ u && u ≤ 0xdfff

/-- The code points of a text; a lone surrogate is replaced. -/
def codePoints : List UInt16 → List ℕ
  | [] => []
  | u :: rest =>
    if isHighSurrogate u then
      match rest with
      | v :: rest =>
        if isLowSurrogate v then (0x10000 + (u.toNat - 0xd800) * 0x400 + (v.toNat - 0xdc00)) :: codePoints rest
        else 0xfffd :: codePoints (v :: rest)
      | [] => [0xfffd]
    else if isLowSurrogate u then 0xfffd :: codePoints rest
    else u.toNat :: codePoints rest

/-- UTF-8 of one code point. -/
def utf8 (c : ℕ) : List UInt8 :=
  if c < 0x80 then [UInt8.ofNat c]
  else if c < 0x800 then [UInt8.ofNat (0xc0 + c / 0x40), UInt8.ofNat (0x80 + c % 0x40)]
  else if c < 0x10000 then
    [UInt8.ofNat (0xe0 + c / 0x1000), UInt8.ofNat (0x80 + c / 0x40 % 0x40), UInt8.ofNat (0x80 + c % 0x40)]
  else
    [UInt8.ofNat (0xf0 + c / 0x40000), UInt8.ofNat (0x80 + c / 0x1000 % 0x40), UInt8.ofNat (0x80 + c / 0x40 % 0x40),
      UInt8.ofNat (0x80 + c % 0x40)]

/-- `new TextEncoder().encode(text)` -/
def textEncode (s : List UInt16) : List UInt8 := (codePoints s).flatMap utf8

def isTail (b : UInt8) : Bool := 0x80 ≤ b && b ≤ 0xbf

def isPair (b0 b1 : UInt8) : Bool := 0xc2 ≤ b0 && b0 ≤ 0xdf && isTail b1

/-- Three bytes: no overlong form, no surrogate. -/
def isTriple (b0 b1 b2 : UInt8) : Bool :=
  0xe0 ≤ b0 && b0 ≤ 0xef && isTail b1 && isTail b2 && (b0 ≠ 0xe0 || 0xa0 ≤ b1) && (b0 ≠ 0xed || b1 ≤ 0x9f)

/-- Four bytes: no overlong form, nothing above U+10FFFF. -/
def isQuad (b0 b1 b2 b3 : UInt8) : Bool :=
  0xf0 ≤ b0 && b0 ≤ 0xf4 && isTail b1 && isTail b2 && isTail b3 && (b0 ≠ 0xf0 || 0x90 ≤ b1) && (b0 ≠ 0xf4 || b1 ≤ 0x8f)

/-- `new TextDecoder('utf-8', { fatal: true })` decodes the bytes. -/
def isUtf8 : List UInt8 → Bool
  | [] => true
  | b0 :: rest =>
    if b0 ≤ 0x7f then isUtf8 rest
    else match rest with
      | [] => false
      | b1 :: rest =>
        if isPair b0 b1 then isUtf8 rest
        else match rest with
          | [] => false
          | b2 :: rest =>
            if isTriple b0 b1 b2 then isUtf8 rest
            else match rest with
              | [] => false
              | b3 :: rest => isQuad b0 b1 b2 b3 && isUtf8 rest

example : textEncode [0x48, 0xe9, 0xd83d, 0xde00, 0xd800]
    = [0x48, 0xc3, 0xa9, 0xf0, 0x9f, 0x98, 0x80, 0xef, 0xbf, 0xbd] := by
  decide

example : isUtf8 [0xed, 0xa0, 0x80] = false := by decide

end JsValue
