/-! The SHA-256 hash (FIPS 180-4). A message is padded with a one bit, zeros and
its length in bits as a 64-bit big-endian number to a multiple of 64 bytes, and
each 64-byte block is folded into eight 32-bit words of state by the
compression function; the digest is the final state, big-endian.

The state after any whole number of blocks can be kept and resumed, which keyed
hashing uses to avoid compressing its fixed key blocks again. -/

namespace LayeredConfig

namespace Sha256

/-- The round constants: the first 32 bits of the fractional parts of the cube
roots of the first 64 primes. -/
def roundConstants : Array UInt32 := #[
  0x428a2f98, 0x71374491, 0xb5c0fbcf, 0xe9b5dba5,
  0x3956c25b, 0x59f111f1, 0x923f82a4, 0xab1c5ed5,
  0xd807aa98, 0x12835b01, 0x243185be, 0x550c7dc3,
  0x72be5d74, 0x80deb1fe, 0x9bdc06a7, 0xc19bf174,
  0xe49b69c1, 0xefbe4786, 0x0fc19dc6, 0x240ca1cc,
  0x2de92c6f, 0x4a7484aa, 0x5cb0a9dc, 0x76f988da,
  0x983e5152, 0xa831c66d, 0xb00327c8, 0xbf597fc7,
  0xc6e00bf3, 0xd5a79147, 0x06ca6351, 0x14292967,
  0x27b70a85, 0x2e1b2138, 0x4d2c6dfc, 0x53380d13,
  0x650a7354, 0x766a0abb, 0x81c2c92e, 0x92722c85,
  0xa2bfe8a1, 0xa81a664b, 0xc24b8b70, 0xc76c51a3,
  0xd192e819, 0xd6990624, 0xf40e3585, 0x106aa070,
  0x19a4c116, 0x1e376c08, 0x2748774c, 0x34b0bcb5,
  0x391c0cb3, 0x4ed8aa4a, 0x5b9cca4f, 0x682e6ff3,
  0x748f82ee, 0x78a5636f, 0x84c87814, 0x8cc70208,
  0x90befffa, 0xa4506ceb, 0xbef9a3f7, 0xc67178f2]

/-- The initial state: the first 32 bits of the fractional parts of the square
roots of the first 8 primes. -/
def initialState : Array UInt32 :=
  #[0x6a09e667, 0xbb67ae85, 0x3c6ef372, 0xa54ff53a, 0x510e527f, 0x9b05688c, 0x1f83d9ab, 0x5be0cd19]

def rotr (x : UInt32) (n : UInt32) : UInt32 := (x >>> n) ||| (x <<< (32 - n))

def schedule (block : Array UInt32) : Array UInt32 :=
  (List.range 48).foldl (fun w i =>
    let t := i + 16
    let w15 := w.getD (t - 15) 0
    let w2 := w.getD (t - 2) 0
    let s0 := rotr w15 7 ^^^ rotr w15 18 ^^^ (w15 >>> 3)
    let s1 := rotr w2 17 ^^^ rotr w2 19 ^^^ (w2 >>> 10)
    w.push (w.getD (t - 16) 0 + s0 + w.getD (t - 7) 0 + s1)) block

structure Working where
  a : UInt32
  b : UInt32
  c : UInt32
  d : UInt32
  e : UInt32
  f : UInt32
  g : UInt32
  h : UInt32

def round (w : Array UInt32) (v : Working) (i : Nat) : Working :=
  let s1 := rotr v.e 6 ^^^ rotr v.e 11 ^^^ rotr v.e 25
  let ch := (v.e &&& v.f) ^^^ ((~~~ v.e) &&& v.g)
  let t1 := v.h + s1 + ch + roundConstants.getD i 0 + w.getD i 0
  let s0 := rotr v.a 2 ^^^ rotr v.a 13 ^^^ rotr v.a 22
  let maj := (v.a &&& v.b) ^^^ (v.a &&& v.c) ^^^ (v.b &&& v.c)
  let t2 := s0 + maj
  ⟨t1 + t2, v.a, v.b, v.c, v.d + t1, v.e, v.f, v.g⟩

def compress (state : Array UInt32) (block : Array UInt32) : Array UInt32 :=
  let w := schedule block
  let s := fun i => state.getD i 0
  let v := (List.range 64).foldl (round w) ⟨s 0, s 1, s 2, s 3, s 4, s 5, s 6, s 7⟩
  #[s 0 + v.a, s 1 + v.b, s 2 + v.c, s 3 + v.d, s 4 + v.e, s 5 + v.f, s 6 + v.g, s 7 + v.h]

def wordsOfBytes (bytes : List UInt8) : Array UInt32 :=
  let rec go : List UInt8 → Array UInt32 → Array UInt32
    | a :: b :: c :: d :: rest, acc =>
      go rest (acc.push ((a.toUInt32 <<< 24) ||| (b.toUInt32 <<< 16) ||| (c.toUInt32 <<< 8) ||| d.toUInt32))
    | _, acc => acc
  go bytes #[]

def bytesOfWords (words : Array UInt32) : List UInt8 :=
  words.toList.flatMap fun (w : UInt32) =>
    [(w >>> 24).toUInt8, (w >>> 16).toUInt8, (w >>> 8).toUInt8, w.toUInt8]

/-- The padding of a message of a given length after some bytes already hashed:
the one bit, zeros, and the total length in bits. -/
def padding (total : Nat) : List UInt8 :=
  let zeros := (119 - total % 64) % 64
  let bits := total * 8
  [0x80] ++ List.replicate zeros 0 ++ (List.range 8).reverse.map fun i => UInt8.ofNat (bits / Nat.pow 2 (8 * i))

def compressBytes : Nat → Array UInt32 → List UInt8 → Array UInt32
  | 0, state, _ => state
  | fuel + 1, state, bytes =>
    if bytes.length < 64 then state
    else compressBytes fuel (compress state (wordsOfBytes (bytes.take 64))) (bytes.drop 64)

/-- Finish a hash whose state covers `hashed` bytes (a multiple of 64) with the
remaining bytes of the message. -/
def finish (state : Array UInt32) (hashed : Nat) (rest : List UInt8) : List UInt8 :=
  let padded := rest ++ padding (hashed + rest.length)
  bytesOfWords (compressBytes (padded.length / 64 + 1) state padded)

def hash (message : List UInt8) : List UInt8 := finish initialState 0 message

end Sha256

end LayeredConfig
