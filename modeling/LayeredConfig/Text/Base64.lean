/-! Base64 with the standard alphabet `A–Z a–z 0–9 + /` and `=` padding.
Encoding pads the last group to four symbols.

Decoding comes in two modes. The *strict* mode wants canonical text: padding
that completes the last group to four symbols, and no bits set beyond the last
whole byte. The *lenient* mode accepts the last group with or without its
padding and ignores leftover bits. Both refuse symbols outside the alphabet,
padding in the middle, padding after fewer than two symbols of a group, and a
single symbol in the last group. Every group but the last is decoded first,
from left to right, except that a text whose length leaves one symbol over and
ends in a byte outside the alphabet is refused for that byte at once. -/

namespace LayeredConfig

namespace Base64

inductive DecodeError where
  | invalidByte (index : Nat) (byte : UInt8)
  | invalidLength (length : Nat)
  | invalidLastSymbol (index : Nat) (byte : UInt8)
  | invalidPadding
  deriving DecidableEq, Inhabited

def DecodeError.message : DecodeError → String
  | .invalidByte i b => "Invalid symbol " ++ toString b.toNat ++ ", offset " ++ toString i ++ "."
  | .invalidLength n => "Invalid input length: " ++ toString n
  | .invalidLastSymbol i b =>
    "Invalid last symbol " ++ toString b.toNat ++ ", offset " ++ toString i ++ "."
  | .invalidPadding => "Invalid padding"

/-- How strictly the last group is read. -/
inductive Mode where
  | strict
  | lenient
  deriving DecidableEq, Inhabited

def symbol (n : Nat) : Char :=
  if n < 26 then Char.ofNat (65 + n)
  else if n < 52 then Char.ofNat (71 + n)
  else if n < 62 then Char.ofNat (n - 4)
  else if n = 62 then '+' else '/'

def symbolValue (b : UInt8) : Option Nat :=
  let n := b.toNat
  if 65 ≤ n ∧ n ≤ 90 then some (n - 65)
  else if 97 ≤ n ∧ n ≤ 122 then some (n - 71)
  else if 48 ≤ n ∧ n ≤ 57 then some (n + 4)
  else if n = 43 then some 62
  else if n = 47 then some 63
  else none

def pad : UInt8 := 61

def encodeGroups : Nat → List UInt8 → List Char
  | 0, _ => []
  | fuel + 1, bytes =>
    match bytes with
    | [] => []
    | [a] =>
      let n := a.toNat * 65536
      [symbol (n / 262144), symbol (n / 4096 % 64), '=', '=']
    | [a, b] =>
      let n := a.toNat * 65536 + b.toNat * 256
      [symbol (n / 262144), symbol (n / 4096 % 64), symbol (n / 64 % 64), '=']
    | a :: b :: c :: rest =>
      let n := a.toNat * 65536 + b.toNat * 256 + c.toNat
      [symbol (n / 262144), symbol (n / 4096 % 64), symbol (n / 64 % 64), symbol (n % 64)] ++
        encodeGroups fuel rest

def encode (bytes : List UInt8) : String := String.ofList (encodeGroups (bytes.length + 1) bytes)

/-- Six-bit values of whole groups, or the first byte outside the alphabet. -/
def groupValues : Nat → List UInt8 → Except DecodeError (List Nat)
  | _, [] => .ok []
  | i, b :: rest =>
    match symbolValue b with
    | none => .error (.invalidByte i b)
    | some v => (groupValues (i + 1) rest).map (v :: ·)

def groupBytes : List Nat → List UInt8
  | a :: b :: c :: d :: rest =>
    let n := ((a * 64 + b) * 64 + c) * 64 + d
    UInt8.ofNat (n / 65536) :: UInt8.ofNat (n / 256 % 256) :: UInt8.ofNat (n % 256) :: groupBytes rest
  | _ => []

/-- State of reading the last group: its six-bit values, the padding seen, where
the padding began and the last symbol. -/
structure Tail where
  values : List Nat := []
  padding : Nat := 0
  firstPad : Nat := 0
  lastSymbol : UInt8 := 0

/-- Read the bytes of the last group, starting at a given index of the text. -/
def readTail (start : Nat) : Nat → Tail → List UInt8 → Except DecodeError Tail
  | _, t, [] => .ok t
  | i, t, b :: rest =>
    if b = pad then
      if i < 2 then .error (.invalidByte (start + i) b)
      else
        let t := if t.padding = 0 then { t with firstPad := i } else t
        readTail start (i + 1) { t with padding := t.padding + 1 } rest
    else if 0 < t.padding then .error (.invalidByte (start + t.firstPad) pad)
    else
      match symbolValue b with
      | none => .error (.invalidByte (start + i) b)
      | some v => readTail start (i + 1) { t with values := t.values ++ [v], lastSymbol := b } rest

def decodeTail (mode : Mode) (whole : Bool) (start : Nat) (tail : List UInt8) :
    Except DecodeError (List UInt8) := do
  let t ← readTail start 0 {} tail
  let k := t.values.length
  if whole && k < 2 then throw (.invalidLength (start + k))
  if mode = .strict && (t.padding + k) % 4 != 0 then throw .invalidPadding
  let count := k * 6 / 8
  let vs := t.values ++ List.replicate (4 - k) 0
  let n := vs.foldl (fun acc v => acc * 64 + v) 0
  let kept := n / Nat.pow 2 (24 - 8 * count)
  if mode = .strict && n % Nat.pow 2 (24 - 8 * count) != 0 then
    throw (.invalidLastSymbol (start + k - 1) t.lastSymbol)
  let bytes := (List.range count).map fun j => UInt8.ofNat (kept / Nat.pow 2 (8 * (count - 1 - j)) % 256)
  return bytes

def decode (mode : Mode) (input : List UInt8) : Except DecodeError (List UInt8) := do
  let len := input.length
  let rem := len % 4
  if rem = 1 then
    match input.getLast? with
    | some b =>
      if b != pad && (symbolValue b).isNone then throw (.invalidByte (len - 1) b)
    | none => pure ()
  let body := if rem = 0 then len - 4 else len - rem
  let values ← groupValues 0 (input.take body)
  let tail ← decodeTail mode (!input.isEmpty) body (input.drop body)
  return groupBytes values ++ tail

end Base64

end LayeredConfig
