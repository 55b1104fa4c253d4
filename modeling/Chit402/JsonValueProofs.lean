import Mathlib.Algebra.Order.Field.Rat

/-! # Parsed JSON as the source language reads it

    A parsed document, the own properties of an object, and the three texts
    the verifier takes of a value: `String(value)`, `JSON.stringify` and the
    canonical form of RFC 8785. -/

namespace JsonValue

/-- A double as the language prints it: `digits * 10 ^ exp` with the fewest
    digits that round to it, or a value that has no digits.  `0` is
    `finite false 0 0`. -/
inductive Num where
  | finite (neg : Bool) (digits : ℕ) (exp : ℤ)
  | negZero
  | infinity (neg : Bool)
deriving DecidableEq

/-- What `JSON.parse` returns.  An object lists each own key once, in the
    order of `Object.keys`. -/
inductive Json where
  | null
  | bool (b : Bool)
  | num (n : Num)
  | str (s : String)
  | arr (items : List Json)
  | obj (fields : List (String × Json))

abbrev Obj := List (String × Json)

/-! ## Own properties -/

/-- The own property `key`; `none` is `undefined`. -/
def get? (o : Obj) (key : String) : Option Json := o.lookup key

def hasOwn (o : Obj) (key : String) : Bool := (get? o key).isSome

/-- `Object.entries` of a value of type `object`. -/
def entriesOf : Json → Obj
  | .obj fields => fields
  | .arr items => items.zipIdx.map fun (item, i) => (toString i, item)
  | _ => []

/-- `asRecord`: an object that is not an array. -/
def asRecord : Option Json → Option Obj
  | some (.obj fields) => some fields
  | _ => none

/-- `value == null` -/
def isNullish : Option Json → Bool
  | none => true
  | some .null => true
  | _ => false

/-- `typeof value === 'string' ? value : null` -/
def asString : Option Json → Option String
  | some (.str s) => some s
  | _ => none

/-! ## Texts of a value -/

/-- `Number.prototype.toString` -/
def Num.text : Num → String
  | .negZero => "0"
  | .infinity neg => if neg then "-Infinity" else "Infinity"
  | .finite neg digits exp =>
    let s := Nat.toDigits 10 digits
    let k : ℤ := s.length
    let n := k + exp
    let sign := if neg then ['-'] else []
    let body :=
      if digits = 0 then ['0']
      else if k ≤ n ∧ n ≤ 21 then s ++ List.replicate (n - k).toNat '0'
      else if 0 < n ∧ n ≤ 21 then s.take n.toNat ++ '.' :: s.drop n.toNat
      else if -6 < n ∧ n ≤ 0 then '0' :: '.' :: (List.replicate (-n).toNat '0' ++ s)
      else
        let power := (if 0 < n - 1 then '+' else '-') :: Nat.toDigits 10 (n - 1).natAbs
        match s with
        | [d] => d :: 'e' :: power
        | d :: rest => d :: '.' :: (rest ++ 'e' :: power)
        | [] => []
    String.ofList (sign ++ body)

/-- `Number.isFinite` -/
def Num.isFinite : Num → Bool
  | .infinity _ => false
  | _ => true

/-- The number a finite double stands for. -/
def Num.value : Num → ℚ
  | .finite neg digits exp => (if neg then -1 else 1) * digits * (10 : ℚ) ^ exp
  | _ => 0

mutual

/-- `String(value)` -/
def text : Json → String
  | .null => "null"
  | .bool b => if b then "true" else "false"
  | .num n => n.text
  | .str s => s
  | .arr items => ",".intercalate (textItems items)
  | .obj _ => "[object Object]"

/-- The elements as `Array.prototype.join` takes them. -/
def textItems : List Json → List String
  | [] => []
  | .null :: rest => "" :: textItems rest
  | item :: rest => text item :: textItems rest

end

/-- `code.toString(16).padStart(4, '0')` -/
def hex4 (code : ℕ) : List Char :=
  let digits := Nat.toDigits 16 code
  List.replicate (4 - digits.length) '0' ++ digits

/-- A character inside a JSON text, control characters as `control` writes them. -/
def escape (control : Char → List Char) (c : Char) : List Char :=
  if c.toNat < 32 then control c
  else if c = '"' then ['\\', '"']
  else if c = '\\' then ['\\', '\\']
  else [c]

def quoteWith (control : Char → List Char) (s : String) : String :=
  String.ofList ('"' :: (s.toList.flatMap (escape control) ++ ['"']))

/-- `JSON.stringify` has short forms for five control characters. -/
def shortControl (c : Char) : List Char :=
  if c = '\n' then ['\\', 'n']
  else if c = '\r' then ['\\', 'r']
  else if c = '\t' then ['\\', 't']
  else if c.toNat = 8 then ['\\', 'b']
  else if c.toNat = 12 then ['\\', 'f']
  else '\\' :: 'u' :: hex4 c.toNat

mutual

/-- `JSON.stringify` -/
def stringify : Json → String
  | .null => "null"
  | .bool b => if b then "true" else "false"
  | .num n => if n.isFinite then n.text else "null"
  | .str s => quoteWith shortControl s
  | .arr items => "[" ++ ",".intercalate (stringifyItems items) ++ "]"
  | .obj fields => "\x7b" ++ ",".intercalate (stringifyFields fields) ++ "\x7d"

def stringifyItems : List Json → List String
  | [] => []
  | item :: rest => stringify item :: stringifyItems rest

def stringifyFields : List (String × Json) → List String
  | [] => []
  | (key, value) :: rest => (quoteWith shortControl key ++ ":" ++ stringify value) :: stringifyFields rest

end

/-! ## The canonical form -/

/-- UTF-16 code units, the order of `<` on texts. -/
def codeUnits (s : String) : List ℕ :=
  s.toList.flatMap fun c =>
    if c.toNat < 0x10000 then [c.toNat]
    else [0xd800 + (c.toNat - 0x10000) / 0x400, 0xdc00 + (c.toNat - 0x10000) % 0x400]

/-- `jcsString` -/
def jcsString (s : String) : String := quoteWith (fun c => '\\' :: 'u' :: hex4 c.toNat) s

mutual

/-- `jcsCanonicalize`; `none` where it throws on a number that is not finite. -/
def jcsCanonicalize : Json → Option String
  | .null => some "null"
  | .bool b => some (if b then "true" else "false")
  | .num n => if n.isFinite then some n.text else none
  | .str s => some (jcsString s)
  | .arr items => (jcsItems items).map fun texts => "[" ++ ",".intercalate texts ++ "]"
  | .obj fields => (jcsFields fields).map fun pairs =>
    let sorted := pairs.mergeSort fun a b => codeUnits a.1 ≤ codeUnits b.1
    "\x7b" ++ ",".intercalate (sorted.map fun pair => jcsString pair.1 ++ ":" ++ pair.2) ++ "\x7d"

def jcsItems : List Json → Option (List String)
  | [] => some []
  | item :: rest => do
    let head ← jcsCanonicalize item
    let tail ← jcsItems rest
    return head :: tail

def jcsFields : List (String × Json) → Option (List (String × String))
  | [] => some []
  | (key, value) :: rest => do
    let head ← jcsCanonicalize value
    let tail ← jcsFields rest
    return (key, head) :: tail

end

/-- `sameCanonical`: a form that cannot be computed equals nothing. -/
def sameCanonical (a b : Json) : Bool :=
  match jcsCanonicalize a, jcsCanonicalize b with
  | some left, some right => left = right
  | _, _ => false

end JsonValue
