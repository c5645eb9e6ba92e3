import LayeredConfig.Text.Quoted

/-! Hex text and bytes. Encoding writes two lowercase digits per byte. Decoding
reads the UTF-8 bytes of a text two at a time, with digits of either case; a
text of odd length is refused before any digit is looked at, otherwise the
first byte that is not a digit is reported with its position. -/

namespace LayeredConfig

namespace Hex

inductive DecodeError where
  | invalidCharacter (byte : UInt8) (position : Nat)
  | oddLength
  deriving DecidableEq, Inhabited

/-- The failure as one line of text; the offending byte is shown as the
character with that code point. -/
def DecodeError.message : DecodeError → String
  | .invalidCharacter b i =>
    "Invalid character " ++ Text.quoteSingle (Char.ofNat b.toNat) ++ " at position " ++ toString i
  | .oddLength => "Odd number of digits"

def digitChar (n : Nat) : Char :=
  if n < 10 then Char.ofNat (48 + n) else Char.ofNat (87 + n)

def encode (bytes : List UInt8) : String :=
  String.ofList (bytes.flatMap fun b => [digitChar (b.toNat / 16), digitChar (b.toNat % 16)])

def digitValue (b : UInt8) : Option Nat :=
  if 48 ≤ b && b ≤ 57 then some (b.toNat - 48)
  else if 65 ≤ b && b ≤ 70 then some (b.toNat - 55)
  else if 97 ≤ b && b ≤ 102 then some (b.toNat - 87)
  else none

/-- Decode pairs of digits, the first at the given position. -/
def decodePairs : Nat → List UInt8 → Except DecodeError (List UInt8)
  | pos, hi :: lo :: rest =>
    match digitValue hi, digitValue lo with
    | none, _ => .error (.invalidCharacter hi pos)
    | _, none => .error (.invalidCharacter lo (pos + 1))
    | some h, some l => (decodePairs (pos + 2) rest).map fun r => UInt8.ofNat (h * 16 + l) :: r
  | _, _ => .ok []

def decode (bytes : List UInt8) : Except DecodeError (List UInt8) :=
  if bytes.length % 2 = 1 then .error .oddLength else decodePairs 0 bytes

end Hex

end LayeredConfig
