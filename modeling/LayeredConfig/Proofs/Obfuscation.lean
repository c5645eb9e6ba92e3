import LayeredConfig.Proofs.Codecs
import LayeredConfig.Proofs.Cipher
import LayeredConfig.Directive.Resolve
import LayeredConfig.Host.Machine

/-! Obfuscated values read back. Encoding with `b64` or `c20p1305` joins the
algorithm, a colon and canonical base64; neither the algorithm's name nor any
base64 text has a colon, so decoding cuts the value where encoding joined it.
The base64 and UTF-8 round trips give back the body and the text. For
`c20p1305` the body is a 12-byte nonce followed by a sealed message, long enough
to pass the length check, which opens under the key it was sealed with; that key
depends on the passphrase and the salt alone, so every obfuscator configured
with them reads the value, whatever its default algorithm.

An `OBF:` leaf applies the gate and nothing else: through an active gate it
gives the decoded text as it is, never read again as a directive, and through
the bootstrapping gate it fails at every depth the directive can be reached. -/

namespace LayeredConfig

private theorem get_thunk {α : Type} (f : Unit → α) : (Thunk.mk f).get = f () := rfl

theorem base64Algorithm_ne_chachaAlgorithm : base64Algorithm ≠ chachaAlgorithm := by decide

theorem ObfuscatorConfig.cipherKey_length (c : ObfuscatorConfig) : c.cipherKey.length = 32 :=
  Pbkdf2.derive32_length _ _ _

/-- The key depends on the passphrase and the salt only. -/
theorem ObfuscatorConfig.cipherKey_congr {c c' : ObfuscatorConfig} (hkey : c'.key = c.key)
    (hsalt : c'.salt = c.salt) : c'.cipherKey = c.cipherKey := by
  rw [cipherKey, cipherKey, hkey, hsalt]

namespace Obfuscator

theorem ofConfig_key_eq (c : ObfuscatorConfig) : (ofConfig c).key = Thunk.mk fun _ => c.cipherKey := rfl

/-- The key an obfuscator derives when first asked, stated without unfolding the
derivation (checking it by evaluation would run every round). -/
@[simp] theorem ofConfig_key (c : ObfuscatorConfig) : (ofConfig c).key.get = c.cipherKey := by
  rw [ofConfig_key_eq, get_thunk]

@[simp] theorem ofConfig_config (c : ObfuscatorConfig) : (ofConfig c).config = c := rfl

theorem decodeBody_encode (bytes : List UInt8) : decodeBody (Base64.encode bytes) = .ok bytes := by
  rw [decodeBody, Base64.decode_encode]

theorem intoText_encode (s : String) : intoText (Utf8.encode s) = .ok s := by
  rw [intoText, Utf8.decode_encode]

theorem splitFirst?_encoded {alg : String} (halg : ':' ∉ alg.toList) (bytes : List UInt8) :
    Text.splitFirst? (alg ++ ":" ++ Base64.encode bytes) ':' = some (alg, Base64.encode bytes) := by
  have hjoin : alg ++ ":" ++ Base64.encode bytes =
      String.ofList (alg.toList ++ ':' :: (Base64.encode bytes).toList) := by
    rw [← String.toList_inj]
    simp
  rw [hjoin, Text.splitFirst?_append halg, String.ofList_toList, String.ofList_toList]

/-- A body of the nonce and a sealed text decrypts to the text under the key it
was sealed with. -/
theorem decrypt_sealed (o : Obfuscator) (hkey : o.key.get.length = 32) {nonce : List UInt8}
    (hnonce : nonce.length = 12) {v : String} (hv : (Utf8.encode v).length < Aead.messageLimit) :
    o.decrypt (Base64.encode (nonce ++ Aead.sealBytes o.key.get nonce (Utf8.encode v))) = .ok v := by
  have hlong : ¬ (nonce ++ Aead.sealBytes o.key.get nonce (Utf8.encode v)).length < 28 := by
    rw [List.length_append, Aead.sealBytes_length hkey hnonce, hnonce]
    omega
  simp only [decrypt, decodeBody_encode, bind, Except.bind, hlong, if_false, List.take_left' hnonce,
    List.drop_left' hnonce, Aead.decrypt_sealBytes hkey hnonce hv, intoText_encode]

theorem decode_sealed (o : Obfuscator) (hkey : o.key.get.length = 32) {nonce : List UInt8}
    (hnonce : nonce.length = 12) {v : String} (hv : (Utf8.encode v).length < Aead.messageLimit) :
    o.decode (chachaAlgorithm ++ ":" ++
      Base64.encode (nonce ++ Aead.sealBytes o.key.get nonce (Utf8.encode v))) = .ok v := by
  rw [decode, splitFirst?_encoded (by decide)]
  simp only [if_true, decrypt_sealed o hkey hnonce hv]

theorem decode_base64 (o : Obfuscator) (v : String) :
    o.decode (base64Algorithm ++ ":" ++ Base64.encode (Utf8.encode v)) = .ok v := by
  rw [decode, splitFirst?_encoded (by decide)]
  simp only [base64Algorithm_ne_chachaAlgorithm, if_false, if_true, decodeBody_encode, bind,
    Except.bind, intoText_encode]

/-- Encoding fails with an unknown algorithm exactly when the effective algorithm
is neither `c20p1305` nor `b64`. -/
theorem encode_eq_unknown_iff (o : Obfuscator) (nonce : List UInt8) (v : String) (alg : Option String) :
    o.encode nonce v alg = .error (.unknownAlgorithm (alg.getD o.config.defaultAlg)) ↔
      alg.getD o.config.defaultAlg ≠ chachaAlgorithm ∧ alg.getD o.config.defaultAlg ≠ base64Algorithm := by
  unfold encode
  by_cases hc : alg.getD o.config.defaultAlg = chachaAlgorithm
  · simp only [hc, if_true]
    split <;> simp
  · by_cases hb : alg.getD o.config.defaultAlg = base64Algorithm
    · simp [hb, base64Algorithm_ne_chachaAlgorithm]
    · simp [hc, hb]

/-- With `c20p1305`, a text of `Aead.messageLimit` bytes or more is refused. -/
theorem encode_overlong (o : Obfuscator) (nonce : List UInt8) {v : String} {alg : Option String}
    (halg : alg.getD o.config.defaultAlg = chachaAlgorithm) (hv : Aead.messageLimit ≤ (Utf8.encode v).length) :
    o.encode nonce v alg = .error .obfuscationFailed := by
  simp only [encode, halg, if_true, Aead.encrypt_of_le hv]

/-- With `c20p1305` or `b64`, encoding gives the algorithm and the base64 of some
bytes, which every obfuscator with the same passphrase and salt decodes back. -/
theorem encode_decodes (c : ObfuscatorConfig) (nonce : Vector UInt8 12) (v : String) (alg : Option String)
    (halg : alg.getD c.defaultAlg = chachaAlgorithm ∨ alg.getD c.defaultAlg = base64Algorithm)
    (hv : alg.getD c.defaultAlg = chachaAlgorithm → (Utf8.encode v).length < Aead.messageLimit) :
    ∃ bytes : List UInt8,
      (ofConfig c).encode nonce.toList v alg = .ok (alg.getD c.defaultAlg ++ ":" ++ Base64.encode bytes) ∧
      ∀ c' : ObfuscatorConfig, c'.key = c.key → c'.salt = c.salt →
        (ofConfig c').decode (alg.getD c.defaultAlg ++ ":" ++ Base64.encode bytes) = .ok v := by
  rcases halg with hc | hb
  · refine ⟨nonce.toList ++ Aead.sealBytes c.cipherKey nonce.toList (Utf8.encode v), ?_, fun c' hkey hsalt => ?_⟩
    · simp [encode, hc, Aead.encrypt_of_lt (hv hc)]
    · have hsame : (ofConfig c').key.get = c.cipherKey := by
        rw [ofConfig_key, ObfuscatorConfig.cipherKey_congr hkey hsalt]
      rw [hc, ← hsame]
      exact decode_sealed _ (by rw [hsame, ObfuscatorConfig.cipherKey_length]) (by simp) (hv hc)
  · refine ⟨Utf8.encode v, ?_, fun c' _ _ => ?_⟩
    · simp [encode, hb, base64Algorithm_ne_chachaAlgorithm]
    · rw [hb]
      exact decode_base64 _ v

end Obfuscator

namespace Directive

theorem parse_obfuscated (payload : String) :
    parse ("OBF:" ++ payload) = some ⟨.obfuscated, payload⟩ := by
  simp [parse, Operator.plainTags, Operator.ofTag?]

end Directive

namespace Resolver

variable {m : Type → Type} [Monad m] [Host m]

theorem apply_obfuscated (r : Resolver) {depth : Nat} (hdepth : depth ≤ r.maxDepth) (fuel : Nat)
    (path : KeyPath) (payload : String) :
    r.apply (m := m) (fuel + 1) path ⟨.obfuscated, payload⟩ depth =
      pure ((r.gate.decode payload path).map fun s => some (.str s)) := by
  rw [apply]
  simp [Nat.not_lt.2 hdepth]

theorem apply_obfuscated_active {o : Obfuscator} {payload v : String} (h : o.decode payload = .ok v)
    {maxDepth depth : Nat} (hdepth : depth ≤ maxDepth) (fuel : Nat) (path : KeyPath) :
    (⟨.active o, maxDepth⟩ : Resolver).apply (m := m) (fuel + 1) path ⟨.obfuscated, payload⟩ depth =
      pure (.ok (some (.str v))) := by
  rw [apply_obfuscated _ hdepth, Gate.decode, h]
  rfl

theorem apply_obfuscated_bootstrapping {maxDepth depth : Nat} (hdepth : depth ≤ maxDepth) (fuel : Nat)
    (path : KeyPath) (payload : String) :
    (⟨.bootstrapping, maxDepth⟩ : Resolver).apply (m := m) (fuel + 1) path ⟨.obfuscated, payload⟩ depth =
      pure (.error (.obfuscatorUnavailable path)) := by
  rw [apply_obfuscated _ hdepth, Gate.decode]
  rfl

end Resolver

/-- Obfuscation round trip. With `c20p1305` or `b64` (given, or the configured
default) and any 12-byte nonce, encoding gives the algorithm, a colon and the
canonical base64 of some bytes, unless `c20p1305` is asked to seal a text of
`Aead.messageLimit` bytes or more, which it refuses. Every obfuscator with the
same passphrase and salt decodes that value back to the text; as the payload of
an `OBF:` leaf, within the depth limit, an active gate over such an obfuscator
resolves it to the text itself, and the bootstrapping gate refuses it. Encoding
fails with an unknown algorithm exactly when the algorithm is neither. -/
theorem obfuscation_round_trip {m : Type → Type} [Monad m] [Host m] (c : ObfuscatorConfig)
    (nonce : Vector UInt8 12) (v : String) (alg : Option String) :
    let eff := alg.getD c.defaultAlg
    (eff = chachaAlgorithm ∨ eff = base64Algorithm →
      (eff = chachaAlgorithm → (Utf8.encode v).length < Aead.messageLimit) →
      ∃ bytes : List UInt8,
        let e := eff ++ ":" ++ Base64.encode bytes
        (Obfuscator.ofConfig c).encode nonce.toList v alg = .ok e ∧
        ∀ c' : ObfuscatorConfig, c'.key = c.key → c'.salt = c.salt →
          (Obfuscator.ofConfig c').decode e = .ok v ∧
          Directive.parse ("OBF:" ++ e) = some ⟨.obfuscated, e⟩ ∧
          ∀ (maxDepth fuel depth : Nat) (path : KeyPath), depth ≤ maxDepth →
            (⟨.active (.ofConfig c'), maxDepth⟩ : Resolver).apply (m := m) (fuel + 1) path
              ⟨.obfuscated, e⟩ depth = pure (.ok (some (.str v))) ∧
            (⟨.bootstrapping, maxDepth⟩ : Resolver).apply (m := m) (fuel + 1) path
              ⟨.obfuscated, e⟩ depth = pure (.error (.obfuscatorUnavailable path))) ∧
    (eff = chachaAlgorithm → Aead.messageLimit ≤ (Utf8.encode v).length →
      (Obfuscator.ofConfig c).encode nonce.toList v alg = .error .obfuscationFailed) ∧
    ((Obfuscator.ofConfig c).encode nonce.toList v alg = .error (.unknownAlgorithm eff) ↔
      eff ≠ chachaAlgorithm ∧ eff ≠ base64Algorithm) := by
  intro eff
  refine ⟨fun halg hv => ?_, fun hc hv => Obfuscator.encode_overlong _ _ hc hv, Obfuscator.encode_eq_unknown_iff _ _ v alg⟩
  obtain ⟨bytes, henc, hdec⟩ := Obfuscator.encode_decodes c nonce v alg halg hv
  refine ⟨bytes, henc, fun c' hkey hsalt => ⟨hdec c' hkey hsalt, Directive.parse_obfuscated _, ?_⟩⟩
  intro maxDepth fuel depth path hdepth
  exact ⟨Resolver.apply_obfuscated_active (hdec c' hkey hsalt) hdepth fuel path,
    Resolver.apply_obfuscated_bootstrapping hdepth fuel path _⟩

/-- The default obfuscator reads back a text that looks like a directive, and its
`OBF:` leaf gives that text as it is. -/
theorem obfuscation_round_trip_directive_text :
    ∃ e, (Obfuscator.ofConfig .standard).encode (List.replicate 12 0) "ENV:HOME" none = .ok e ∧
      (Obfuscator.ofConfig .standard).decode e = .ok "ENV:HOME" ∧
      (⟨.active (.ofConfig .standard), defaultMaxDepth⟩ : Resolver).apply (m := StateM Machine) 1 []
        ⟨.obfuscated, e⟩ 0 = pure (.ok (some (.str "ENV:HOME"))) := by
  obtain ⟨hround, -⟩ := obfuscation_round_trip (m := StateM Machine) ObfuscatorConfig.standard
    (Vector.replicate 12 0) "ENV:HOME" none
  obtain ⟨bytes, henc, hread⟩ := hround (.inl rfl) fun _ => by decide +kernel
  obtain ⟨hdec, -, hleaf⟩ := hread ObfuscatorConfig.standard rfl rfl
  exact ⟨_, by simpa using henc, hdec, (hleaf defaultMaxDepth 0 0 [] (Nat.zero_le _)).1⟩

end LayeredConfig
