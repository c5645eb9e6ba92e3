import LayeredConfig.Crypto.Aead
import LayeredConfig.Crypto.Pbkdf2

/-! The facts about the ciphers that obfuscation rests on. A block of ChaCha20
key stream has four bytes for each of its sixteen words when the key has 32
bytes and the nonce 12, so the stream covers each 64-byte piece of a message;
the exclusive or with it then undoes itself, and encryption with the same key,
nonce and counter is its own inverse. A sealed message ends in a 16-byte tag,
so opening it finds the ciphertext and the tag it was sealed with and gives the
message back. SHA-256 digests have 32 bytes, and so has every key PBKDF2
derives. -/

namespace LayeredConfig

theorem zipWith_xor_xor {bytes stream : List UInt8} (h : bytes.length ≤ stream.length) :
    ((bytes.zipWith (· ^^^ ·) stream).zipWith (· ^^^ ·) stream) = bytes := by
  induction bytes generalizing stream with
  | nil => simp
  | cons b rest ih =>
    cases stream with
    | nil => simp at h
    | cons s stream =>
      simp only [List.zipWith_cons_cons, UInt8.xor_assoc, UInt8.xor_self, UInt8.xor_zero,
        ih (by simpa using h)]

theorem length_flatMap_four {α : Type} (l : List α) (f : α → List UInt8) (hf : ∀ a, (f a).length = 4) :
    (l.flatMap f).length = 4 * l.length := by
  induction l with
  | nil => rfl
  | cons a rest ih => rw [List.flatMap_cons, List.length_append, hf, ih, List.length_cons]; omega

namespace ChaCha20

theorem quarter_size (s : Array UInt32) (a b c d : Nat) : (quarter s a b c d).size = s.size := by
  simp [quarter]

theorem doubleRound_size (s : Array UInt32) : (doubleRound s).size = s.size := by
  simp [doubleRound, quarter_size]

theorem bytesOfWords_length (words : Array UInt32) : (bytesOfWords words).length = 4 * words.size := by
  rw [bytesOfWords, length_flatMap_four _ _ fun _ => rfl, Array.length_toList]

theorem block_length (key : Array UInt32) (counter : UInt32) (nonce : Array UInt32) :
    (block key counter nonce).length = 4 * (key.size + nonce.size + 5) := by
  have hmixed : ∀ n (s : Array UInt32), ((List.range n).foldl (fun s _ => doubleRound s) s).size = s.size := by
    intro n s
    induction n generalizing s with
    | zero => rfl
    | succ n ih => rw [List.range_succ, List.foldl_append, List.foldl_cons, List.foldl_nil, doubleRound_size, ih]
  simp [block, bytesOfWords_length, hmixed, constants]
  omega

theorem wordsOfBytes_size (bytes : List UInt8) : (wordsOfBytes bytes).size = bytes.length / 4 := by
  have hgo : ∀ acc, (wordsOfBytes.go bytes acc).size = acc.size + bytes.length / 4 := by
    intro acc
    fun_induction wordsOfBytes.go bytes acc with
    | case1 a b c d rest acc ih => simp only [ih, Array.size_push, List.length_cons]; omega
    | case2 bytes acc hbytes =>
      match bytes, hbytes with
      | [], _ | [_], _ | [_, _], _ | [_, _, _], _ => simp
      | _ :: _ :: _ :: _ :: _, hbytes => exact (hbytes _ _ _ _ _ rfl).elim
  simp [wordsOfBytes, hgo]

section Stream

variable {key nonce : Array UInt32}

theorem xorStream_nil (fuel : Nat) (counter : UInt32) : xorStream key nonce fuel counter [] = [] := by
  cases fuel <;> rfl

theorem xorStream_succ {message : List UInt8} (h : message ≠ []) (fuel : Nat) (counter : UInt32) :
    xorStream key nonce (fuel + 1) counter message =
      (message.take 64).zipWith (· ^^^ ·) (block key counter nonce) ++
        xorStream key nonce fuel (counter + 1) (message.drop 64) := by
  cases message with
  | nil => contradiction
  | cons b rest => rfl

variable (hblock : ∀ counter, 64 ≤ (block key counter nonce).length)
include hblock

theorem xorStream_length {fuel : Nat} {counter : UInt32} {message : List UInt8}
    (h : message.length ≤ 64 * fuel) : (xorStream key nonce fuel counter message).length = message.length := by
  fun_induction xorStream key nonce fuel counter message with
  | case1 counter message =>
    simp only [Nat.mul_zero, Nat.le_zero, List.length_eq_zero_iff] at h
    simp [h]
  | case2 => rfl
  | case3 fuel counter message stream hne ih =>
    have hs : 64 ≤ stream.length := hblock counter
    have hrest := ih (by simp; omega)
    simp only [List.length_append, List.length_zipWith, List.length_take, hrest, List.length_drop]
    omega

theorem xorStream_xorStream {fuel : Nat} {counter : UInt32} {message : List UInt8}
    (h : message.length ≤ 64 * fuel) :
    xorStream key nonce fuel counter (xorStream key nonce fuel counter message) = message := by
  induction fuel generalizing counter message with
  | zero =>
    simp only [Nat.mul_zero, Nat.le_zero, List.length_eq_zero_iff] at h
    simp [h, xorStream_nil]
  | succ fuel ih =>
    by_cases hm : message = []
    · simp [hm, xorStream_nil]
    have hs := hblock counter
    have hhead : ((message.take 64).zipWith (· ^^^ ·) (block key counter nonce)).length =
        min 64 message.length := by
      simp only [List.length_zipWith, List.length_take]
      omega
    have hne : (message.take 64).zipWith (· ^^^ ·) (block key counter nonce) ++
        xorStream key nonce fuel (counter + 1) (message.drop 64) ≠ [] := by
      intro hnil
      have hlen := congrArg List.length hnil
      have hpos : 0 < message.length := List.length_pos_iff.2 hm
      rw [List.length_append, hhead, List.length_nil] at hlen
      omega
    have hpiece : (message.take 64).length ≤ (block key counter nonce).length := by
      simp only [List.length_take]
      omega
    rw [xorStream_succ hm, xorStream_succ hne]
    by_cases hlong : 64 ≤ message.length
    · rw [List.take_left' (by rw [hhead]; omega), List.drop_left' (by rw [hhead]; omega),
        zipWith_xor_xor hpiece, ih (by simp only [List.length_drop]; omega), List.take_append_drop]
    · have hdrop : message.drop 64 = [] := List.drop_eq_nil_of_le (by omega)
      rw [hdrop, xorStream_nil, List.append_nil, List.take_of_length_le (by rw [hhead]; omega),
        List.drop_of_length_le (by rw [hhead]; omega), xorStream_nil, List.append_nil,
        zipWith_xor_xor hpiece, List.take_of_length_le (by omega)]

end Stream

theorem block_length_standard {key nonce : List UInt8} (hkey : key.length = 32) (hnonce : nonce.length = 12)
    (counter : UInt32) : (block (wordsOfBytes key) counter (wordsOfBytes nonce)).length = 64 := by
  rw [block_length, wordsOfBytes_size, wordsOfBytes_size, hkey, hnonce]

theorem encrypt_length {key nonce : List UInt8} (hkey : key.length = 32) (hnonce : nonce.length = 12)
    (counter : UInt32) (message : List UInt8) : (encrypt key nonce counter message).length = message.length :=
  xorStream_length (fun c => Nat.le_of_eq (block_length_standard hkey hnonce c).symm) (by omega)

/-- Encryption with the same key, nonce and counter undoes itself. -/
theorem encrypt_encrypt {key nonce : List UInt8} (hkey : key.length = 32) (hnonce : nonce.length = 12)
    (counter : UInt32) (message : List UInt8) :
    encrypt key nonce counter (encrypt key nonce counter message) = message := by
  have hblock := fun c => Nat.le_of_eq (block_length_standard hkey hnonce c).symm
  rw [encrypt, encrypt_length hkey hnonce, encrypt]
  exact xorStream_xorStream hblock (by omega)

end ChaCha20

namespace Sha256

theorem compress_size (state block : Array UInt32) : (compress state block).size = 8 := rfl

theorem bytesOfWords_length (words : Array UInt32) : (bytesOfWords words).length = 4 * words.size := by
  rw [bytesOfWords, length_flatMap_four _ _ fun _ => rfl, Array.length_toList]

theorem wordsOfBytes_size (bytes : List UInt8) : (wordsOfBytes bytes).size = bytes.length / 4 := by
  have hgo : ∀ acc, (wordsOfBytes.go bytes acc).size = acc.size + bytes.length / 4 := by
    intro acc
    fun_induction wordsOfBytes.go bytes acc with
    | case1 a b c d rest acc ih => simp only [ih, Array.size_push, List.length_cons]; omega
    | case2 bytes acc hbytes =>
      match bytes, hbytes with
      | [], _ | [_], _ | [_, _], _ | [_, _, _], _ => simp
      | _ :: _ :: _ :: _ :: _, hbytes => exact (hbytes _ _ _ _ _ rfl).elim
  simp [wordsOfBytes, hgo]

theorem compressBytes_size {state : Array UInt32} (h : state.size = 8) (fuel : Nat) (bytes : List UInt8) :
    (compressBytes fuel state bytes).size = 8 := by
  fun_induction compressBytes fuel state bytes with
  | case1 => exact h
  | case2 => exact h
  | case3 fuel state bytes hlong ih => exact ih (compress_size _ _)

theorem finish_length {state : Array UInt32} (h : state.size = 8) (hashed : Nat) (rest : List UInt8) :
    (finish state hashed rest).length = 32 := by
  rw [finish, bytesOfWords_length, compressBytes_size h]

end Sha256

namespace Hmac

theorem Key.ofBytes_outer_size (key : List UInt8) : (Key.ofBytes key).outer.size = 8 :=
  Sha256.compress_size _ _

theorem Key.mac_length (key : List UInt8) (message : List UInt8) :
    ((Key.ofBytes key).mac message).length = 32 :=
  Sha256.finish_length (Key.ofBytes_outer_size key) _ _

end Hmac

namespace Pbkdf2

theorem chain_size (key : Hmac.Key) (n : Nat) (u : Array UInt32) {acc : Array UInt32} (h : acc.size = 8) :
    (chain key n u acc).size = 8 := by
  induction n generalizing u acc with
  | zero => exact h
  | succ n ih => exact ih _ (by simp [xorWords, h, Hmac.Key.macWords, Sha256.compress_size])

/-- The derived key has 32 bytes, whatever the password, salt and number of iterations. -/
theorem derive32_length (password salt : List UInt8) (iterations : Nat) :
    (derive32 password salt iterations).length = 32 := by
  have hfirst : (Sha256.wordsOfBytes ((Hmac.Key.ofBytes password).mac (salt ++ [0, 0, 0, 1]))).size = 8 := by
    rw [Sha256.wordsOfBytes_size, Hmac.Key.mac_length]
  rw [derive32, Sha256.bytesOfWords_length, chain_size _ _ _ hfirst]

end Pbkdf2

namespace Poly1305

theorem toBytes_length (n x : Nat) : (toBytes n x).length = n := by simp [toBytes]

theorem tag_length (key message : List UInt8) : (tag key message).length = 16 := toBytes_length _ _

end Poly1305

namespace Aead

theorem tagOf_length (key nonce ciphertext : List UInt8) : (tagOf key nonce ciphertext).length = 16 :=
  Poly1305.tag_length _ _

theorem sealBytes_length {key nonce : List UInt8} (hkey : key.length = 32) (hnonce : nonce.length = 12)
    (message : List UInt8) : (sealBytes key nonce message).length = message.length + 16 := by
  rw [sealBytes, List.length_append, ChaCha20.encrypt_length hkey hnonce, tagOf_length]

theorem encrypt_of_lt {key nonce message : List UInt8} (h : message.length < messageLimit) :
    encrypt key nonce message = some (sealBytes key nonce message) := by
  rw [encrypt, if_neg (Nat.not_le.2 h)]

theorem encrypt_of_le {key nonce message : List UInt8} (h : messageLimit ≤ message.length) :
    encrypt key nonce message = none := by
  rw [encrypt, if_pos h]

/-- Opening a message sealed below the limit, with the key and nonce it was
sealed with, gives the message back. -/
theorem decrypt_sealBytes {key nonce : List UInt8} (hkey : key.length = 32) (hnonce : nonce.length = 12)
    {message : List UInt8} (h : message.length < messageLimit) :
    decrypt key nonce (sealBytes key nonce message) = some message := by
  have hcut : (sealBytes key nonce message).length - 16 = (ChaCha20.encrypt key nonce 1 message).length := by
    rw [sealBytes_length hkey hnonce, ChaCha20.encrypt_length hkey hnonce, Nat.add_sub_cancel]
  have hfits : ¬ messageLimit ≤ (ChaCha20.encrypt key nonce 1 message).length := by
    rw [ChaCha20.encrypt_length hkey hnonce]
    omega
  rw [decrypt, if_neg (by rw [sealBytes_length hkey hnonce]; omega), hcut]
  simp only [sealBytes, List.take_left, List.drop_left, hfits, if_false, if_true,
    ChaCha20.encrypt_encrypt hkey hnonce]

end Aead

end LayeredConfig
