/-! The ChaCha20 stream cipher (RFC 8439, section 2.3–2.4). A block of key
stream is twenty rounds of quarter rounds over sixteen 32-bit words (four
constants, the key, a block counter and the nonce), added word by word to the
words it started from and written little-endian. Encryption is the exclusive or
of the message with the key stream of consecutive blocks. -/

namespace LayeredConfig

namespace ChaCha20

def wordsOfBytes (bytes : List UInt8) : Array UInt32 :=
  let rec go : List UInt8 → Array UInt32 → Array UInt32
    | a :: b :: c :: d :: rest, acc =>
      go rest (acc.push (a.toUInt32 ||| (b.toUInt32 <<< 8) ||| (c.toUInt32 <<< 16) ||| (d.toUInt32 <<< 24)))
    | _, acc => acc
  go bytes #[]

def bytesOfWords (words : Array UInt32) : List UInt8 :=
  words.toList.flatMap fun (w : UInt32) =>
    [w.toUInt8, (w >>> 8).toUInt8, (w >>> 16).toUInt8, (w >>> 24).toUInt8]

def rotl (x : UInt32) (n : UInt32) : UInt32 := (x <<< n) ||| (x >>> (32 - n))

def quarter (s : Array UInt32) (a b c d : Nat) : Array UInt32 :=
  let va := s[a]! + s[b]!
  let vd := rotl (s[d]! ^^^ va) 16
  let vc := s[c]! + vd
  let vb := rotl (s[b]! ^^^ vc) 12
  let va := va + vb
  let vd := rotl (vd ^^^ va) 8
  let vc := vc + vd
  let vb := rotl (vb ^^^ vc) 7
  ((((s.set! a va).set! b vb).set! c vc).set! d vd)

def doubleRound (s : Array UInt32) : Array UInt32 :=
  let s := quarter s 0 4 8 12
  let s := quarter s 1 5 9 13
  let s := quarter s 2 6 10 14
  let s := quarter s 3 7 11 15
  let s := quarter s 0 5 10 15
  let s := quarter s 1 6 11 12
  let s := quarter s 2 7 8 13
  quarter s 3 4 9 14

def constants : Array UInt32 := #[0x61707865, 0x3320646e, 0x79622d32, 0x6b206574]

def block (key : Array UInt32) (counter : UInt32) (nonce : Array UInt32) : List UInt8 :=
  let start := constants ++ key ++ #[counter] ++ nonce
  let mixed := (List.range 10).foldl (fun s _ => doubleRound s) start
  bytesOfWords ((mixed.zip start).map fun (x, y) => x + y)

/-- Encrypt (or decrypt) a message, block by block from a counter. -/
def xorStream (key : Array UInt32) (nonce : Array UInt32) : Nat → UInt32 → List UInt8 → List UInt8
  | 0, _, _ => []
  | fuel + 1, counter, message =>
    match message with
    | [] => []
    | _ =>
      let stream := block key counter nonce
      (message.take 64).zipWith (· ^^^ ·) stream ++ xorStream key nonce fuel (counter + 1) (message.drop 64)

/-- Encrypt (or decrypt) a message with a 32-byte key and a 12-byte nonce,
starting at a block counter. -/
def encrypt (key nonce : List UInt8) (counter : UInt32) (message : List UInt8) : List UInt8 :=
  xorStream (wordsOfBytes key) (wordsOfBytes nonce) (message.length + 1) counter message

end ChaCha20

end LayeredConfig
