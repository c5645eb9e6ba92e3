/-! IEEE 754 double precision values, kept as their 64-bit patterns. A finite
value is `significand * 2 ^ exponent` with both read off the fields, and every
arithmetic operation computes its exact rational result first and then rounds it
once, to the nearest representable value with ties to an even significand. This
is the rounding of the hardware operations, so sums, products, quotients and
conversions agree bit for bit with them, while every step stays ordinary `Nat`
arithmetic that proofs can follow. -/

namespace LayeredConfig

/-- A double precision value as its bit pattern: sign, 11 exponent bits,
52 fraction bits. -/
structure Binary64 where
  bits : UInt64
  deriving DecidableEq, Inhabited

namespace Binary64

def signField (x : Binary64) : Bool := x.bits >>> 63 == 1

def exponentField (x : Binary64) : Nat := ((x.bits >>> 52) &&& 0x7FF).toNat

def fractionField (x : Binary64) : Nat := (x.bits &&& 0xFFFFFFFFFFFFF).toNat

def ofFields (negative : Bool) (biased fraction : Nat) : Binary64 :=
  ⟨UInt64.ofNat ((if negative then Nat.pow 2 63 else 0) + biased * Nat.pow 2 52 + fraction)⟩

def zero (negative : Bool) : Binary64 := ofFields negative 0 0

def infinity (negative : Bool) : Binary64 := ofFields negative 2047 0

/-- The quiet NaN that arithmetic produces. -/
def nan : Binary64 := ⟨0x7FF8000000000000⟩

def isNaN (x : Binary64) : Bool := x.exponentField == 2047 && x.fractionField != 0

def isInfinite (x : Binary64) : Bool := x.exponentField == 2047 && x.fractionField == 0

def isFinite (x : Binary64) : Bool := x.exponentField != 2047

def isZero (x : Binary64) : Bool := x.exponentField == 0 && x.fractionField == 0

/-- The integer significand of a finite value, with the hidden bit of normal values. -/
def significand (x : Binary64) : Nat :=
  if x.exponentField = 0 then x.fractionField else x.fractionField + Nat.pow 2 52

/-- The binary exponent of a finite value: `|x| = significand * 2 ^ exponent`. -/
def exponent (x : Binary64) : Int :=
  if x.exponentField = 0 then -1074 else (x.exponentField : Int) - 1075

def neg (x : Binary64) : Binary64 := ⟨x.bits ^^^ 0x8000000000000000⟩

def abs (x : Binary64) : Binary64 := ⟨x.bits &&& 0x7FFFFFFFFFFFFFFF⟩

/-- `⌊log₂ (num / den)⌋` for positive `num` and `den`. The quotient lies strictly
between `2 ^ (a - b - 1)` and `2 ^ (a - b + 1)` for the bit lengths `a` and `b`,
so one comparison decides between the two candidates. -/
def floorLog2Ratio (num den : Nat) : Int :=
  let a := num.log2
  let b := den.log2
  if b ≤ a then
    if den * Nat.pow 2 (a - b) ≤ num then (a - b : Nat) else (a - b : Nat) - 1
  else
    if den ≤ num * Nat.pow 2 (b - a) then -((b - a : Nat) : Int) else -((b - a : Nat) : Int) - 1

/-- Round a significand that may have reached `2 ^ 53` into the fields. -/
def pack (negative : Bool) (m : Nat) (q : Int) : Binary64 :=
  let (m, q) := if m = Nat.pow 2 53 then (Nat.pow 2 52, q + 1) else (m, q)
  if m < Nat.pow 2 52 then ofFields negative 0 m
  else
    let biased := q + 1075
    if 2047 ≤ biased then infinity negative else ofFields negative biased.toNat (m - Nat.pow 2 52)

/-- The value nearest to `(num / den) * 2 ^ scale` with the given sign, ties to an
even significand; values beyond the largest finite one become infinite. The
exponent is chosen so that the significand has 53 bits, or the least exponent
for subnormal values, and the quotient is then rounded in `Nat`. -/
def round (negative : Bool) (num den : Nat) (scale : Int) : Binary64 :=
  if num = 0 ∨ den = 0 then zero negative else
  let top := floorLog2Ratio num den + scale
  let q : Int := max (top - 52) (-1074)
  let shift := scale - q
  let n := if 0 ≤ shift then num * Nat.pow 2 shift.toNat else num
  let d := if 0 ≤ shift then den else den * Nat.pow 2 (-shift).toNat
  let m := n / d
  let r := n % d
  let m := if d < 2 * r ∨ (2 * r = d ∧ m % 2 = 1) then m + 1 else m
  pack negative m q

def ofNat (n : Nat) : Binary64 := round false n 1 0

def ofInt (i : Int) : Binary64 := round (decide (i < 0)) i.natAbs 1 0

/-- Exact value of a finite double as a signed numerator over a power of two. -/
def toSignedScaled (x : Binary64) : Int × Int :=
  let m : Int := x.significand
  (if x.signField then -m else m, x.exponent)

def mul (x y : Binary64) : Binary64 :=
  let negative := x.signField != y.signField
  if x.isNaN || y.isNaN then nan
  else if x.isInfinite || y.isInfinite then
    if x.isZero || y.isZero then nan else infinity negative
  else round negative (x.significand * y.significand) 1 (x.exponent + y.exponent)

def div (x y : Binary64) : Binary64 :=
  let negative := x.signField != y.signField
  if x.isNaN || y.isNaN then nan
  else if x.isInfinite then (if y.isInfinite then nan else infinity negative)
  else if y.isInfinite then zero negative
  else if y.isZero then (if x.isZero then nan else infinity negative)
  else round negative x.significand y.significand (x.exponent - y.exponent)

/-- Sum, rounded once; an exact zero sum of finite values is `+0` unless both
addends are `-0`. -/
def add (x y : Binary64) : Binary64 :=
  if x.isNaN || y.isNaN then nan
  else if x.isInfinite then
    (if y.isInfinite && x.signField != y.signField then nan else x)
  else if y.isInfinite then y
  else
    let (a, ea) := x.toSignedScaled
    let (b, eb) := y.toSignedScaled
    let e := min ea eb
    let s := a * Nat.pow 2 (ea - e).toNat + b * Nat.pow 2 (eb - e).toNat
    if s = 0 then zero (x.signField && y.signField)
    else round (decide (s < 0)) s.natAbs 1 e

/-- Whether `x < y`: false when either is NaN, infinities below and above every
finite value, finite values compared exactly on a common power of two. -/
def lt (x y : Binary64) : Bool :=
  if x.isNaN || y.isNaN then false
  else if x.isInfinite then x.signField && !(y.isInfinite && y.signField)
  else if y.isInfinite then !y.signField
  else
    let (a, ea) := x.toSignedScaled
    let (b, eb) := y.toSignedScaled
    let e := min ea eb
    decide (a * Nat.pow 2 (ea - e).toNat < b * Nat.pow 2 (eb - e).toNat)

instance : Add Binary64 := ⟨add⟩
instance : Mul Binary64 := ⟨mul⟩
instance : Div Binary64 := ⟨div⟩
instance : Neg Binary64 := ⟨neg⟩

def isIntegral (x : Binary64) : Bool :=
  x.isFinite && (0 ≤ x.exponent || x.significand % Nat.pow 2 (-x.exponent).toNat == 0)

def truncate (x : Binary64) : Int :=
  let m : Nat :=
    if 0 ≤ x.exponent then x.significand * Nat.pow 2 x.exponent.toNat
    else x.significand / Nat.pow 2 (-x.exponent).toNat
  if x.signField then -(m : Int) else m

def magnitudeBelowPow2 (x : Binary64) (k : Nat) : Bool :=
  x.isFinite && (x.isZero || decide (floorLog2Ratio x.significand 1 + x.exponent < k))

end Binary64

end LayeredConfig
