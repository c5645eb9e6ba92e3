/-! The Poly1305 one-time authenticator (RFC 8439, section 2.5). The first half of
the one-time key, with 22 bits cleared, is the point `r`; the message is read in
16-byte little-endian pieces, each with a one byte above it, and folded into the
accumulator by `acc ↦ (acc + piece) · r mod (2¹³⁰ − 5)`. The tag is the low
128 bits of the accumulator plus the second half of the key. -/

namespace LayeredConfig

namespace Poly1305

def ofBytes (bytes : List UInt8) : Nat :=
  bytes.foldr (fun b acc => acc * 256 + b.toNat) 0

/-- The `n` little-endian bytes of a number below `256 ^ n`. -/
def toBytes (n : Nat) (x : Nat) : List UInt8 :=
  (List.range n).map fun i => UInt8.ofNat (x / Nat.pow 256 i % 256)

def prime : Nat := Nat.pow 2 130 - 5

/-- The mask that clears the 22 bits of `r` that must be zero. -/
def clampMask : Nat := 0x0ffffffc0ffffffc0ffffffc0fffffff

def absorb (r : Nat) : Nat → Nat → List UInt8 → Nat
  | 0, acc, _ => acc
  | fuel + 1, acc, message =>
    match message with
    | [] => acc
    | _ =>
      let piece := message.take 16
      let n := ofBytes piece + Nat.pow 256 piece.length
      absorb r fuel ((acc + n) * r % prime) (message.drop 16)

/-- The tag of a message under a 32-byte one-time key. -/
def tag (key : List UInt8) (message : List UInt8) : List UInt8 :=
  let r := ofBytes (key.take 16) &&& clampMask
  let s := ofBytes (key.drop 16)
  toBytes 16 ((absorb r (message.length + 1) 0 message + s) % Nat.pow 2 128)

end Poly1305

end LayeredConfig
