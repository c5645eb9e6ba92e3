import LayeredConfig.Number.Binary64

/-! The Jaro similarity of two texts, used to suggest a known name for a
mistyped one. Two characters match when they are equal and no further apart
than half the longer length less one, each character matching at most once and
the first free one taken; `t` is half the number of matched characters that
appear in a different order. With `m` matches, lengths `a` and `b`, the
similarity is `(m/a + m/b + (m - t)/m) / 3`, computed in double precision. -/

namespace LayeredConfig

namespace Similarity

/-- Mark the first free position of `b` in `[lo, hi)` holding `ch`. -/
def claim (ch : Char) (lo hi : Nat) (b : Array Char) (taken : Array Bool) : Option (Array Bool) :=
  ((List.range hi).drop lo).findSome? fun j =>
    if b[j]? = some ch && taken[j]? = some false then some (taken.set! j true) else none

def matchFlags (a b : Array Char) : Array Bool × Array Bool :=
  let range := max a.size b.size / 2 - 1
  (List.range a.size).foldl (fun (fa, fb) i =>
    let lo := i - range
    let hi := min b.size (i + range + 1)
    match a[i]? with
    | some ch =>
      match claim ch lo hi b fb with
      | some fb' => (fa.set! i true, fb')
      | none => (fa, fb)
    | none => (fa, fb)) (Array.replicate a.size false, Array.replicate b.size false)

/-- The similarity as a double, each quotient, sum and the final division by
three rounded as the hardware rounds them, left to right. Near the threshold of
`0.7` this rounding decides: `2.1 / 3` lands just above it. -/
def jaro (x y : String) : Binary64 :=
  let a := x.toList.toArray
  let b := y.toList.toArray
  if a.size = 0 && b.size = 0 then Binary64.ofNat 1
  else if a.size = 0 || b.size = 0 then Binary64.ofNat 0
  else
    let (fa, fb) := matchFlags a b
    let ma := ((a.toList.zip fa.toList).filter (·.2)).map (·.1)
    let mb := ((b.toList.zip fb.toList).filter (·.2)).map (·.1)
    let m := ma.length
    let t := ((ma.zip mb).filter fun (p, q) => p != q).length / 2
    if m = 0 then Binary64.ofNat 0
    else
      let d := Binary64.ofNat
      (d m / d a.size + d m / d b.size + d (m - t) / d m) / d 3

/-- The threshold a similarity must exceed: the double nearest to `0.7`. -/
def threshold : Binary64 := Binary64.round false 7 10 0

def isClose (x y : String) : Bool := threshold.lt (jaro x y)

/-- The known names close to a text, least similar first; among equally similar
names the earlier comes first. -/
def suggestions (text : String) (names : List String) : List String :=
  let close := names.filter (isClose text)
  close.mergeSort fun p q => !(jaro text q).lt (jaro text p)

end Similarity

end LayeredConfig
