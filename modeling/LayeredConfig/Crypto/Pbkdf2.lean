import LayeredConfig.Crypto.Sha256

/-! Keyed hashing (HMAC-SHA256, RFC 2104) and password-based key derivation
(PBKDF2, RFC 8018) with it. A key longer than a block is hashed first, then
padded with zeros to one block; the keyed hash of a message is the hash of the
key masked with `0x5c` followed by the hash of the key masked with `0x36`
followed by the message. The state after each masked key block is computed once
per key. The derived key of 32 bytes is the exclusive or of the chain
`U₁ = HMAC(password, salt ‖ 1)`, `Uᵢ₊₁ = HMAC(password, Uᵢ)`; the chain is
computed on words, two compressions a link. -/

namespace LayeredConfig

namespace Hmac

/-- A key prepared for keyed hashing: the states after its two masked blocks. -/
structure Key where
  inner : Array UInt32
  outer : Array UInt32

def Key.ofBytes (key : List UInt8) : Key :=
  let k := if 64 < key.length then Sha256.hash key else key
  let k := k ++ List.replicate (64 - k.length) 0
  ⟨Sha256.compress Sha256.initialState (Sha256.wordsOfBytes (k.map (· ^^^ 0x36))),
   Sha256.compress Sha256.initialState (Sha256.wordsOfBytes (k.map (· ^^^ 0x5c)))⟩

def Key.mac (key : Key) (message : List UInt8) : List UInt8 :=
  Sha256.finish key.outer 64 (Sha256.finish key.inner 64 message)

/-- The final block of a 32-byte message after one key block: the message, the
one bit, and the length of 96 bytes in bits. -/
def digestBlock (words : Array UInt32) : Array UInt32 :=
  words ++ #[0x80000000, 0, 0, 0, 0, 0, 0, 768]

def Key.macWords (key : Key) (words : Array UInt32) : Array UInt32 :=
  Sha256.compress key.outer (digestBlock (Sha256.compress key.inner (digestBlock words)))

end Hmac

namespace Pbkdf2

def xorWords (a b : Array UInt32) : Array UInt32 :=
  (a.zip b).map fun (x, y) => x ^^^ y

/-- Run the remaining links of the chain, accumulating their exclusive or. -/
def chain (key : Hmac.Key) : Nat → Array UInt32 → Array UInt32 → Array UInt32
  | 0, _, acc => acc
  | n + 1, u, acc =>
    let next := key.macWords u
    chain key n next (xorWords acc next)

/-- The first 32 bytes derived from a password and a salt. -/
def derive32 (password salt : List UInt8) (iterations : Nat) : List UInt8 :=
  let key := Hmac.Key.ofBytes password
  let first := Sha256.wordsOfBytes (key.mac (salt ++ [0, 0, 0, 1]))
  Sha256.bytesOfWords (chain key (iterations - 1) first first)

end Pbkdf2

end LayeredConfig
