/-!
# Draftboard.Number.Exact

Operations on 64-bit numbers that round once, at the end, from the exact value.

* A number is taken apart into sign, mantissa and exponent (`Exact.unpack`), the
  operation is carried out on integers, and one rounding to nearest, ties to even,
  makes a number of the result again (`Exact.pack`).
* Everything here is a definition the kernel can unfold, so the value of an
  operation at a given input is a fact and not a measurement.
-/

namespace Draftboard.Exact

open Float.Model (UnpackedFloat Format)
open Float.Model.UnpackedFloat (Sign Accuracy)

/-! ### Taking numbers apart -/

/-- The sign, mantissa and exponent of a number, or the kind of special value it is. -/
def unpack (x : Float) : UnpackedFloat := x.toModel.unpack

/-- The number with the given sign, mantissa and exponent, which must already be rounded. -/
def pack (u : UnpackedFloat) : Float := .ofModel (.pack u)

/-- The nearest number to `(-1)^s * m * 2^e`; a zero keeps the sign `s`. -/
def nearest (s : Sign) (m : Nat) (e : Int) : Float :=
  if m = 0 then pack (.zero s) else pack (UnpackedFloat.round Format.binary64 s m e)

/-- Whether the sign bit is set. A quantity that is not a number has no sign. -/
def isNegative (x : Float) : Bool :=
  match unpack x with
  | .finite .negative .. | .zero .negative | .infinity .negative => true
  | _ => false

/-! ### Multiplication and addition in one step -/

/-- The nearest number to `a * b + c`, with no rounding of the product in between. -/
def fusedMulAdd (a b c : Float) : Float :=
  match unpack a, unpack b, unpack c with
  | .finite s₁ m₁ e₁ _, .finite s₂ m₂ e₂ _, .finite s₃ m₃ e₃ _ =>
    let e := min (e₁ + e₂) e₃
    let product := (s₁ * s₂).apply ((m₁ * m₂) <<< (e₁ + e₂ - e).toNat : Nat)
    let addend := s₃.apply (m₃ <<< (e₃ - e).toNat : Nat)
    pack (UnpackedFloat.normalize Format.binary64 (product + addend) e .positive)
  | .finite .., .finite .., .zero _ => a * b
  | .finite .., .finite .., _ => c
  | _, _, _ => a * b + c

/-! ### Rounding to whole numbers -/

/-- The nearest whole number; a half goes away from zero. -/
def roundHalfAway (x : Float) : Float :=
  match unpack x with
  | .finite s m e _ =>
    if 0 ≤ e then x
    else
      let unit := 1 <<< (-e).toNat
      nearest s ((2 * m + unit) / (2 * unit)) 0
  | _ => x

/-- The whole part as a count: negative values and what is not a number give 0, and a value
too large for 64 bits gives the largest count of 64 bits. -/
def toCount (x : Float) : Nat := x.toUInt64.toNat

/-- The whole part as a signed number of 64 bits: what is not a number gives 0, and a value out of
range the end of the range on its side. -/
def toInt (x : Float) : Int := (unpack x).toInt64.toInt

/-! ### Roots -/

/-- The largest `r` with `r ^ 3 ≤ n`, found bit by bit from the highest that can be set. -/
def cubeRoot (n : Nat) : Nat := go (n.log2 / 3 + 1) 0
where
  /-- Settles the lowest `k` bits of the root, the higher ones being those of `r`. -/
  go : Nat → Nat → Nat
    | 0, r => r
    | k + 1, r =>
      let higher := r + 1 <<< k
      if higher * higher * higher ≤ n then go k higher else go k r

/-- The number nearest to the real cube root. The root of the scaled mantissa has at least 56
bits, and what is left over decides the rounding. -/
def cbrt (x : Float) : Float :=
  match unpack x with
  | .finite s m e _ =>
    let target := (e + (m.log2 : Int) - 169) / 3
    let scaled := m <<< (e - 3 * target).toNat
    let root := cubeRoot scaled
    let accuracy : Accuracy :=
      if root * root * root = scaled then .exact
      else
        let odd := 2 * root + 1
        .inexact (compare (8 * scaled) (odd * odd * odd))
    pack (UnpackedFloat.roundWithAccuracy Format.binary64 s root target accuracy)
  | _ => x

/-- The mantissa and exponent of the magnitude of a finite number. -/
def magnitude : UnpackedFloat → Nat × Int
  | .finite _ m e _ => (m, e)
  | _ => (0, 0)

/-- The number nearest to the length of the vector `(x, y)`. An infinite component makes the
length infinite, whatever the other one is. -/
def hypot (x y : Float) : Float :=
  if x.isInf || y.isInf then Float.ofBits 0x7FF0000000000000
  else if x.isNaN || y.isNaN then x + y
  else
    let (m₁, e₁) := magnitude (unpack x)
    let (m₂, e₂) := magnitude (unpack y)
    let e := min e₁ e₂
    let a := m₁ <<< (e₁ - e).toNat
    let b := m₂ <<< (e₂ - e).toNat
    let square := a * a + b * b
    if h : 0 < square then
      pack (UnpackedFloat.sqrt Format.binary64 (.finite .positive square (2 * e) h))
    else pack (.zero .positive)

/-! ### Fewer bits -/

/-- The nearest 32-bit number. -/
def narrow (x : Float) : Float32 :=
  .ofModel (.pack (match unpack x with
    | .finite s m e _ => UnpackedFloat.round Format.binary32 s m e
    | u => u))

/-! ### Angles -/

/-- The ratio of a circle's circumference to its diameter. -/
def pi : Float := 3.141592653589793

/-- The sine of an angle in radians. That of a zero is the zero itself, of the same sign. -/
def sin (x : Float) : Float := if x == 0 then x else x.sin

/-- The cosine of an angle in radians. That of a zero is one. -/
def cos (x : Float) : Float := if x == 0 then 1 else x.cos

end Draftboard.Exact
