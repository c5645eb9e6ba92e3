import LayeredConfig.Crypto.ChaCha20
import LayeredConfig.Crypto.Poly1305

/-! Authenticated encryption with ChaCha20 and Poly1305 (RFC 8439, section 2.8),
with no additional data. The one-time key is the first 32 bytes of the key stream
block 0; the message is encrypted from block 1; the tag authenticates the
ciphertext padded to 16 bytes followed by the lengths of the (empty) additional
data and of the ciphertext as 64-bit little-endian numbers. Opening recomputes
the tag and compares it before decrypting. The block counter has 32 bits and
block 0 makes the one-time key, so a message of `2³² − 1` blocks of 64 bytes or
more is refused, sealed or opened, before the counter could wrap. -/

namespace LayeredConfig

namespace Aead

def macData (ciphertext : List UInt8) : List UInt8 :=
  ciphertext ++ List.replicate ((16 - ciphertext.length % 16) % 16) 0 ++
    Poly1305.toBytes 8 0 ++ Poly1305.toBytes 8 ciphertext.length

def tagOf (key nonce ciphertext : List UInt8) : List UInt8 :=
  let oneTime := (ChaCha20.block (ChaCha20.wordsOfBytes key) 0 (ChaCha20.wordsOfBytes nonce)).take 32
  Poly1305.tag oneTime (macData ciphertext)

/-- The length in bytes from which a message is refused: `2³² − 1` blocks of 64. -/
def messageLimit : Nat := 274877906880

/-- A message sealed: the ciphertext followed by its 16-byte tag. -/
def sealBytes (key nonce message : List UInt8) : List UInt8 :=
  let ciphertext := ChaCha20.encrypt key nonce 1 message
  ciphertext ++ tagOf key nonce ciphertext

def encrypt (key nonce message : List UInt8) : Option (List UInt8) :=
  if messageLimit ≤ message.length then none else some (sealBytes key nonce message)

/-- Decrypt a ciphertext followed by its tag, if the tag is right. -/
def decrypt (key nonce sealed : List UInt8) : Option (List UInt8) :=
  if sealed.length < 16 then none
  else
    let ciphertext := sealed.take (sealed.length - 16)
    if messageLimit ≤ ciphertext.length then none
    else if tagOf key nonce ciphertext = sealed.drop (sealed.length - 16) then
      some (ChaCha20.encrypt key nonce 1 ciphertext)
    else none

end Aead

end LayeredConfig
