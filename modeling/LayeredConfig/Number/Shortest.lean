import LayeredConfig.Number.Binary64

/-! Shortest decimal text of a double. A finite nonzero double stands for the
interval of reals that round to it; its shortest decimal is the one with the
fewest significant digits in that interval, and of two such the one nearer to
the double (an exact tie goes to the even digit string). The search tries one to
seventeen digits; at each length only the two grid points around the value can
lie in the interval, because the interval contains the value and is convex.
Everything is decided by exact comparisons of `Nat` products.

Two layouts of those digits are used by the formats of this library: the
*exponent* layout writes the digits positionally while the decimal point lies
within sixteen places of the first digit and as `d.ddde-7` or `d.ddde+22`
beyond, the
*positional* layout never uses an exponent. -/

namespace LayeredConfig

/-- A decimal `digits * 10 ^ exponent`. -/
structure Decimal where
  digits : Nat
  exponent : Int
  deriving DecidableEq, Inhabited

def Decimal.zeros (n : Nat) : String := String.ofList (List.replicate n '0')

/-- The exponent layout of a positive decimal: with `kk` the place of the decimal
point after the first digit, positional with a `.0` for whole numbers when
`kk` is at most sixteen, `0.000ddd` down to four leading zeros, otherwise one
digit, a point, the rest and `e` with the exponent, which always has a sign. -/
def Decimal.exponentLayout (d : Decimal) : String :=
  let s := Nat.repr d.digits
  let n : Int := s.length
  let k := d.exponent
  let kk := n + k
  if 0 ≤ k ∧ kk ≤ 16 then s ++ Decimal.zeros k.toNat ++ ".0"
  else if 0 < kk ∧ kk ≤ 16 then
    String.ofList (s.toList.take kk.toNat) ++ "." ++ String.ofList (s.toList.drop kk.toNat)
  else if -5 < kk ∧ kk ≤ 0 then "0." ++ Decimal.zeros (-kk).toNat ++ s
  else
    let e := if 0 < kk then "+" ++ toString (kk - 1) else toString (kk - 1)
    if n = 1 then s ++ "e" ++ e
    else String.ofList (s.toList.take 1) ++ "." ++ String.ofList (s.toList.drop 1) ++ "e" ++ e

/-- The positional layout of a positive decimal, never with an exponent and with
no point for whole numbers. -/
def Decimal.positionalLayout (d : Decimal) : String :=
  let s := Nat.repr d.digits
  let n : Int := s.length
  let k := d.exponent
  let kk := n + k
  if 0 ≤ k then s ++ Decimal.zeros k.toNat
  else if 0 < kk then
    String.ofList (s.toList.take kk.toNat) ++ "." ++ String.ofList (s.toList.drop kk.toNat)
  else "0." ++ Decimal.zeros (-kk).toNat ++ s

namespace Binary64

/-- Compare `a * 10 ^ p10` with `b * 2 ^ p2` exactly. -/
def compareScaled (a : Nat) (p10 : Int) (b : Nat) (p2 : Int) : Ordering :=
  compare (a * Nat.pow 10 p10.toNat * Nat.pow 2 (-p2).toNat) (b * Nat.pow 2 p2.toNat * Nat.pow 10 (-p10).toNat)

def decimalLength (n : Nat) : Nat := (Nat.repr n).length

/-- `⌊log₁₀ (m * 2 ^ e)⌋` for positive `m`. With `num / den` the value and `t` the
difference of their digit counts, the value lies strictly between `10 ^ (t - 1)`
and `10 ^ (t + 1)`, so one comparison with `10 ^ t` decides. -/
def floorLog10 (m : Nat) (e : Int) : Int :=
  let num := m * Nat.pow 2 e.toNat
  let den := Nat.pow 2 (-e).toNat
  let t : Int := (decimalLength num : Int) - decimalLength den
  if compareScaled 1 t m e == .gt then t - 1 else t

/-- Remove trailing zero digits, raising the exponent. -/
def stripZeros : Nat → Nat → Int → Decimal
  | 0, d, k => ⟨d, k⟩
  | fuel + 1, d, k => if d ≠ 0 ∧ d % 10 = 0 then stripZeros fuel (d / 10) (k + 1) else ⟨d, k⟩

/-- The shortest decimal of the magnitude of a finite nonzero double. The
interval of reals that round to `m * 2 ^ e` reaches half a unit above and half a
unit below, except a quarter unit below at a power of two with a smaller
neighbour; its ends belong to it when `m` is even. -/
def shortestDecimal (x : Binary64) : Decimal :=
  let m := x.significand
  let e := x.exponent
  let lowerGap := if x.fractionField ≠ 0 ∨ x.exponentField ≤ 1 then 2 else 1
  let upper := 4 * m + 2
  let lower := 4 * m - lowerGap
  let inclusive := m % 2 == 0
  let inside (c : Nat) (k : Int) : Bool :=
    let lo := compareScaled c k lower (e - 2)
    let hi := compareScaled c k upper (e - 2)
    (lo == .gt || (inclusive && lo == .eq)) && (hi == .lt || (inclusive && hi == .eq))
  let t := floorLog10 m e
  let atLength (p : Nat) : Option Decimal :=
    let k : Int := t - p + 1
    let c := (m * Nat.pow 2 e.toNat * Nat.pow 10 (-k).toNat) / (Nat.pow 2 (-e).toNat * Nat.pow 10 k.toNat)
    let lowIn := inside c k
    let highIn := inside (c + 1) k
    if lowIn && highIn then
      match compareScaled (2 * c + 1) k m (e + 1) with
      | .gt => some ⟨c, k⟩
      | .lt => some ⟨c + 1, k⟩
      | .eq => some ⟨if c % 2 = 0 then c else c + 1, k⟩
    else if lowIn then some ⟨c, k⟩
    else if highIn then some ⟨c + 1, k⟩
    else none
  let found := ((List.range 17).map (· + 1)).findSome? atLength
  let d := found.getD ⟨m, e⟩
  stripZeros 20 d.digits d.exponent

/-- Shortest text of a finite double in the exponent layout: `0.0`, `-0.0`,
`1.5`, `1e+22`, `1.2345678901234566e+29`, `1e-7`. -/
def toExponentText (x : Binary64) : String :=
  let sign := if x.signField then "-" else ""
  if x.isZero then sign ++ "0.0" else sign ++ (shortestDecimal x).exponentLayout

/-- Shortest text of a double in the positional layout, with `NaN`, `inf` and
`-inf` for the values that are not finite: `0`, `-0`, `1.5`, `10000000000000000000000`. -/
def toPositionalText (x : Binary64) : String :=
  let sign := if x.signField then "-" else ""
  if x.isNaN then "NaN"
  else if x.isInfinite then sign ++ "inf"
  else if x.isZero then sign ++ "0"
  else sign ++ (shortestDecimal x).positionalLayout

end Binary64

end LayeredConfig
