import Chit402.HexDigestProofs
import Chit402.JsValueProofs
import Chit402.SolidityProofs

/-! # Key algorithms and the range of a signature

    One table of algorithms; the line codec, the key status and the seller
    all take the admitted ones from it. -/

namespace KeyRegistry

open Solidity

/-- A short Weierstrass curve `y² = x³ + ax + b` over the field of `p`. -/
structure Curve where
  p : ℕ
  a : ℕ
  b : ℕ
  order : ℕ

def P256 : Curve where
  p := 0xFFFFFFFF00000001000000000000000000000000FFFFFFFFFFFFFFFFFFFFFFFF
  a := 0xFFFFFFFF00000001000000000000000000000000FFFFFFFFFFFFFFFFFFFFFFFC
  b := 0x5AC635D8AA3A93E7B3EBBD55769886BC651D06B0CC53B0F63BCE3C3E27D2604B
  order := 0xFFFFFFFF00000000FFFFFFFFFFFFFFFFBCE6FAADA7179E84F3B9CAC2FC632551

structure AlgRow where
  keyAlg : ℕ
  curve : String
  encoding : String
  length : ℕ
  launch : Bool

def ALG_REGISTRY : List AlgRow := [
  { keyAlg := 0x01, curve := "P-256", encoding := "sec1-compressed", length := 33, launch := true },
  { keyAlg := 0x02, curve := "secp256k1", encoding := "sec1-compressed", length := 33, launch := false }]

def LAUNCH_ALGS : List ℕ := (ALG_REGISTRY.filter fun row => row.launch).map AlgRow.keyAlg

/-- The range of a 64-byte `r ‖ s`: `r` in `[1, n - 1]`, `s` in `[1, n / 2]`. -/
def inSigmaRange (sigma64 : List UInt8) : Bool :=
  let r := ofBigEndian (sigma64.take 32)
  let s := ofBigEndian (sigma64.drop 32)
  sigma64.length = 64 && 1 ≤ r && r < P256.order && 1 ≤ s && s ≤ P256.order / 2

end KeyRegistry
