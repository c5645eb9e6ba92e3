import Mathlib.Data.List.Forall2
import LayeredConfig.Proofs.Codecs
import LayeredConfig.Proofs.DirectiveGrammar
import LayeredConfig.Proofs.Nesting
import LayeredConfig.Proofs.SecretSteps

/-! Lenient reading of encoded text. A `B64STR:` payload is read after its ASCII
blanks are dropped and `-` and `_` are taken for `+` and `/`, and the lenient
decoder accepts the last group with any part of its padding. So every spelling
of an encoding that drops padding from its end, writes the URL-safe symbols for
the two last ones of the alphabet, and puts blanks anywhere, reads back as the
bytes encoded. A `HEXSTR:` payload is read with digits of either case.

The base64 argument follows the layout of an encoding: whole groups of four
symbols, read by `groupValues`, then a last group of two to four symbols with
padding after them. Reading the last group collects the six-bit values and
counts the padding, and lenient decoding looks at the values only; so the last
group decodes the same with and without its padding, and with all of it strict
decoding already gives the bytes back. -/

namespace LayeredConfig

namespace Base64

open Utf8 (asciiByte)

/-! ### The last group without its padding -/

theorem symbol_ne_pad (n : Nat) : symbol n ≠ '=' := forall_symbol (P := (· ≠ '=')) (by decide) n

theorem readTail_pads (start : Nat) {i : Nat} (hi : 2 ≤ i) (t : Tail) (j : Nat) :
    ∃ t', readTail start i t (List.replicate j pad) = .ok t' ∧ t'.values = t.values := by
  induction j generalizing i t with
  | zero => exact ⟨t, rfl, rfl⟩
  | succ j ih =>
    obtain ⟨t', ht', hv⟩ := ih (i := i + 1) (by omega) _
    refine ⟨t', ?_, ?_⟩
    · rw [List.replicate_succ, readTail, if_pos rfl, if_neg (by omega)]
      exact ht'
    · rw [hv]
      split <;> rfl

theorem readTail_symbols_pads (start : Nat) {vs : List Nat} (hvs : ∀ v ∈ vs, v < 64) (j : Nat) :
    ∀ {i : Nat} (t : Tail), t.padding = 0 → 2 ≤ i + vs.length →
      ∃ t', readTail start i t (vs.map (asciiByte ∘ symbol) ++ List.replicate j pad) = .ok t' ∧
        t'.values = t.values ++ vs := by
  induction vs with
  | nil =>
    intro i t _ hi
    simpa using readTail_pads start (by simpa using hi) t j
  | cons v rest ih =>
    intro i t hpad hi
    have hv := symbol_spec v (hvs v List.mem_cons_self)
    obtain ⟨t', ht', hval⟩ := ih (fun w hw => hvs w (List.mem_cons_of_mem v hw)) (i := i + 1)
      { t with values := t.values ++ [v], lastSymbol := asciiByte (symbol v) } hpad
      (by simp at hi; omega)
    refine ⟨t', ?_, by simp [hval]⟩
    have hne : asciiByte (symbol v) ≠ pad := hv.2.1
    simp only [List.map_cons, List.cons_append, Function.comp_apply]
    rw [readTail, if_neg hne, if_neg (by omega), hv.2.2]
    exact ht'

theorem decodeTail_lenient_congr {start : Nat} {x y : List UInt8} {t t' : Tail}
    (hx : readTail start 0 {} x = .ok t) (hy : readTail start 0 {} y = .ok t')
    (hv : t.values = t'.values) (whole : Bool) :
    decodeTail .lenient whole start x = decodeTail .lenient whole start y := by
  simp [decodeTail, hx, hy, hv, bind, Except.bind]

/-- What strict decoding accepts, lenient decoding reads the same. -/
theorem decodeTail_lenient_of_strict {whole : Bool} {start : Nat} {x bytes : List UInt8}
    (h : decodeTail .strict whole start x = .ok bytes) : decodeTail .lenient whole start x = .ok bytes := by
  unfold decodeTail at h ⊢
  cases hx : readTail start 0 {} x with
  | error e => simp [hx, bind, Except.bind] at h
  | ok t =>
    simp [hx, bind, Except.bind, throw, throwThe, MonadExceptOf.throw, pure, Except.pure] at h ⊢
    split at h
    · cases h
    rename_i hlen
    rw [if_neg hlen]
    split at h
    · split at h
      · exact h
      · cases h
    · cases h

/-- The last group of an encoding: the symbols of two to four six-bit values,
then the padding that completes it. -/
theorem encodeGroups_lastGroup_eq {last : List UInt8} (h₁ : 0 < last.length) (h₃ : last.length ≤ 3)
    (k : Nat) : ∃ vs : List Nat, (∀ v ∈ vs, v < 64) ∧ vs.length = last.length + 1 ∧
      encodeGroups (k + 1) last = vs.map symbol ++ List.replicate (3 - last.length) '=' := by
  match last, h₁, h₃ with
  | [a], _, _ =>
    have ha := a.toNat_lt
    exact ⟨[a.toNat * 65536 / 262144, a.toNat * 65536 / 4096 % 64], by simp; omega, rfl, rfl⟩
  | [a, b], _, _ =>
    have ha := a.toNat_lt
    have hb := b.toNat_lt
    let n := a.toNat * 65536 + b.toNat * 256
    exact ⟨[n / 262144, n / 4096 % 64, n / 64 % 64], by simp [n]; omega, rfl, rfl⟩
  | [a, b, c], _, _ =>
    have ha := a.toNat_lt
    have hb := b.toNat_lt
    have hc := c.toNat_lt
    let n := a.toNat * 65536 + b.toNat * 256 + c.toNat
    exact ⟨[n / 262144, n / 4096 % 64, n / 64 % 64, n % 64], by simp [n]; omega, rfl,
      by simp [encodeGroups, encodeGroups_nil, n]⟩

/-- Dropping copies of `c` from the end of `xs` followed by copies of `c`, when
`c` is not in `xs`, leaves `xs` followed by fewer copies. -/
theorem eq_append_replicate_of_append_replicate {α : Type} {kept xs : List α} {c : α} {j m : Nat}
    (hc : c ∉ xs) (h : kept ++ List.replicate j c = xs ++ List.replicate m c) :
    j ≤ m ∧ kept = xs ++ List.replicate (m - j) c := by
  rcases List.append_eq_append_iff.1 h with ⟨as, hxs, hrep⟩ | ⟨bs, hkept, hrep⟩
  · obtain rfl : as = [] := by
      cases as with
      | nil => rfl
      | cons a rest =>
        have ha : a = c := List.eq_of_mem_replicate (by rw [hrep]; simp)
        exact absurd (hxs ▸ ha ▸ List.mem_append_right kept List.mem_cons_self) hc
    have hjm : j = m := by simpa using congrArg List.length hrep
    subst hjm
    simp [hxs]
  · obtain ⟨hlen, hbs, -⟩ := List.append_eq_replicate_iff.1 hrep.symm
    rw [List.length_replicate] at hlen
    refine ⟨by omega, ?_⟩
    rw [hkept, hbs, show bs.length = m - j by omega]

/-- A text whose length leaves two or three symbols over, or none, is decoded as
its whole groups but the last, then the last group of two to four symbols by itself. -/
theorem decode_append_tail (mode : Mode) {body tail : List UInt8} (hbody : body.length % 4 = 0)
    (h₂ : 2 ≤ tail.length) (h₄ : tail.length ≤ 4) :
    decode mode (body ++ tail) = (do
      let values ← groupValues 0 body
      let bytes ← decodeTail mode true body.length tail
      return groupBytes values ++ bytes) := by
  rcases Nat.lt_or_eq_of_le h₄ with h₄ | h₄
  · have hrem : (body ++ tail).length % 4 = tail.length := by simp; omega
    have hcut : (body ++ tail).length - tail.length = body.length := by simp
    have hwhole : (body ++ tail).isEmpty = false := by
      rw [List.isEmpty_eq_false_iff, ← List.length_pos_iff]; simp; omega
    simp only [decode, hrem, hcut, hwhole, List.take_left, List.drop_left, Bool.not_false,
      if_neg (show tail.length ≠ 1 by omega), if_neg (show tail.length ≠ 0 by omega)]
  · exact decode_append_lastGroup mode hbody h₄

/-- Lenient decoding reads back the bytes of an encoding with any number of its
padding symbols dropped from the end. -/
theorem decode_lenient_unpadded (bytes : List UInt8) {kept : List Char} {j : Nat}
    (h : kept ++ List.replicate j '=' = (encode bytes).toList) :
    decode .lenient (kept.map asciiByte) = .ok bytes := by
  rcases Nat.eq_zero_or_pos bytes.length with hlen | hlen
  · rw [List.length_eq_zero_iff.1 hlen] at h ⊢
    obtain ⟨rfl, -⟩ : kept = [] ∧ j = 0 := by simpa [encode, encodeGroups] using h
    rfl
  obtain ⟨front, last, k, rfl, hfront, hlast₁, hlast₃, hgroups⟩ := encode_front_last hlen
  obtain ⟨vs, hvs, hvlen, hlastEq⟩ := encodeGroups_lastGroup_eq hlast₁ hlast₃ k
  have hchars : (encode (front ++ last)).toList =
      ((sextets front).map symbol ++ vs.map symbol) ++ List.replicate (3 - last.length) '=' := by
    rw [hgroups, hlastEq, List.append_assoc]
  have hsym : '=' ∉ (sextets front).map symbol ++ vs.map symbol := by simp [symbol_ne_pad]
  obtain ⟨hj, hkept⟩ := eq_append_replicate_of_append_replicate hsym (h.trans hchars)
  have hbody : ((sextets front).map (asciiByte ∘ symbol)).length % 4 = 0 := by simp [sextets_length]
  rw [hkept, List.map_append, List.map_append, List.map_map, List.map_map, List.map_replicate,
    asciiByte_pad, List.append_assoc, decode_append_tail .lenient hbody (by simp; omega) (by simp; omega),
    groupValues_symbols sextets_lt]
  have htail : decodeTail .lenient true (sextets front).length
      (vs.map (asciiByte ∘ symbol) ++ List.replicate (3 - last.length - j) pad) = .ok last := by
    obtain ⟨t₁, h₁, hv₁⟩ := readTail_symbols_pads _ hvs (3 - last.length - j) (i := 0) {} rfl (by omega)
    obtain ⟨t₂, h₂, hv₂⟩ := readTail_symbols_pads _ hvs (3 - last.length) (i := 0) {} rfl (by omega)
    rw [decodeTail_lenient_congr h₁ h₂ (hv₁.trans hv₂.symm)]
    apply decodeTail_lenient_of_strict
    have hstrict := decodeTail_lastGroup hlast₁ hlast₃ k (sextets front).length
    rwa [hlastEq, List.map_append, List.map_replicate, asciiByte_pad, List.map_map] at hstrict
  simp [htail, bind, Except.bind, pure, Except.pure, groupBytes_sextets hfront]

/-! ### Spellings of an encoding -/

/-- The ASCII blanks a payload may hold: space, tab, line feed, form feed and
carriage return. -/
def asciiBlanks : List Char := [' ', '\t', '\n', '\x0C', '\r']

/-- The spellings of a base64 text that a payload may use: `-` for `+`, `_` for
`/`, and ASCII blanks anywhere. -/
inductive Respelling : List Char → List Char → Prop
  | nil : Respelling [] []
  | keep (c : Char) {cs es : List Char} : Respelling cs es → Respelling (c :: cs) (c :: es)
  | dash {cs es : List Char} : Respelling cs es → Respelling ('+' :: cs) ('-' :: es)
  | underscore {cs es : List Char} : Respelling cs es → Respelling ('/' :: cs) ('_' :: es)
  | blank {w : Char} {cs es : List Char} : w ∈ asciiBlanks → Respelling cs es → Respelling cs (w :: es)

theorem isAsciiBlank_of_mem {w : Char} (hw : w ∈ asciiBlanks) : Text.isAsciiBlank w = true := by
  simp only [asciiBlanks, List.mem_cons, List.not_mem_nil, or_false] at hw
  rcases hw with rfl | rfl | rfl | rfl | rfl <;> rfl

/-- Dropping blanks and reading `-` and `_` as `+` and `/` undoes a respelling
of a text that has none of them. -/
theorem Respelling.normalize {cs es : List Char} (h : Respelling cs es)
    (hcs : ∀ c ∈ cs, c ≠ '-' ∧ c ≠ '_' ∧ Text.isAsciiBlank c = false) :
    (es.filter (!Text.isAsciiBlank ·)).map (fun c => if c = '-' then '+' else if c = '_' then '/' else c) =
      cs := by
  induction h with
  | nil => rfl
  | keep c _ ih =>
    obtain ⟨h₁, h₂, h₃⟩ := hcs c List.mem_cons_self
    simp [h₁, h₂, h₃, ih fun d hd => hcs d (List.mem_cons_of_mem c hd)]
  | dash _ ih =>
    have hdash : Text.isAsciiBlank '-' = false := by decide
    simp [hdash, ih fun d hd => hcs d (List.mem_cons_of_mem '+' hd)]
  | underscore _ ih =>
    have hunder : Text.isAsciiBlank '_' = false := by decide
    simp [hunder, ih fun d hd => hcs d (List.mem_cons_of_mem '/' hd)]
  | blank hw _ ih => simp [isAsciiBlank_of_mem hw, ih hcs]

/-- An encoding is ASCII and holds no blank and neither `-` nor `_`. -/
theorem mem_encode_standard {bytes : List UInt8} {c : Char} (h : c ∈ (encode bytes).toList) :
    (c ≠ '-' ∧ c ≠ '_' ∧ Text.isAsciiBlank c = false) ∧ c.toNat < 128 := by
  rw [encode, String.toList_ofList] at h
  let P : Char → Prop := fun c => (c ≠ '-' ∧ c ≠ '_' ∧ Text.isAsciiBlank c = false) ∧ c.toNat < 128
  exact encodeGroups_forall (P := P) (forall_symbol (P := P) (by decide)) (by decide) _ _ c h

/-- Every respelling of an encoding with padding dropped from its end decodes,
leniently and in the standard alphabet, to the bytes encoded. -/
theorem decode_standardAlphabet_respelling (bytes : List UInt8) {kept e : List Char} {j : Nat}
    (hkept : kept ++ List.replicate j '=' = (encode bytes).toList) (he : Respelling kept e) :
    decode .lenient (Resolver.standardAlphabet (String.ofList e)) = .ok bytes := by
  have hmem : ∀ c ∈ kept, (c ≠ '-' ∧ c ≠ '_' ∧ Text.isAsciiBlank c = false) ∧ c.toNat < 128 :=
    fun c hc => mem_encode_standard (hkept ▸ List.mem_append_left _ hc)
  rw [Resolver.standardAlphabet, String.toList_ofList, he.normalize fun c hc => (hmem c hc).1,
    Utf8.encode_ofList_ascii fun c hc => (hmem c hc).2, decode_lenient_unpadded bytes hkept]

end Base64

namespace Hex

open Utf8 (asciiByte)

theorem digitChar_spec : ∀ n, n < 16 →
    ((digitChar n).toNat < 128 ∧ digitValue (asciiByte (digitChar n)) = some n) ∧
      ((digitChar n).toUpper.toNat < 128 ∧ digitValue (asciiByte (digitChar n).toUpper) = some n) := by
  decide

/-- A digit written in either case is ASCII and reads as its value. -/
theorem digitValue_of_case {n : Nat} (hn : n < 16) {c : Char}
    (hc : c = digitChar n ∨ c = (digitChar n).toUpper) :
    c.toNat < 128 ∧ digitValue (asciiByte c) = some n := by
  rcases hc with rfl | rfl
  · exact (digitChar_spec n hn).1
  · exact (digitChar_spec n hn).2

/-- The digits of an encoding, each in either case, are ASCII and read back, pair
by pair, as the bytes encoded. -/
theorem decodePairs_of_cases (bytes : List UInt8) {h : List Char}
    (hh : List.Forall₂ (fun c d => c = d ∨ c = d.toUpper) h (encode bytes).toList) :
    (∀ c ∈ h, c.toNat < 128) ∧ ∀ pos, decodePairs pos (h.map asciiByte) = .ok bytes := by
  induction bytes generalizing h with
  | nil =>
    rw [toList_encode, List.flatMap_nil, List.forall₂_nil_right_iff] at hh
    subst hh
    exact ⟨by simp, fun _ => rfl⟩
  | cons b rest ih =>
    rw [toList_encode, List.flatMap_cons, ← toList_encode, List.cons_append, List.cons_append,
      List.nil_append] at hh
    obtain ⟨c₁, h', hc₁, hh', rfl⟩ := List.forall₂_cons_right_iff.1 hh
    obtain ⟨c₂, h'', hc₂, hh'', rfl⟩ := List.forall₂_cons_right_iff.1 hh'
    have hb := b.toNat_lt
    obtain ⟨a₁, d₁⟩ := digitValue_of_case (n := b.toNat / 16) (by omega) hc₁
    obtain ⟨a₂, d₂⟩ := digitValue_of_case (n := b.toNat % 16) (by omega) hc₂
    obtain ⟨hascii, hrest⟩ := ih hh''
    refine ⟨?_, fun pos => ?_⟩
    · simp only [List.mem_cons]
      rintro c (rfl | rfl | hc)
      exacts [a₁, a₂, hascii c hc]
    · simp only [List.map_cons, decodePairs, d₁, d₂, hrest, Except.map, Except.ok.injEq, List.cons.injEq,
        and_true, ← UInt8.toNat_inj, UInt8.toNat_ofNat']
      omega

/-- Hex digits of bytes, each in either case, decode to the bytes. -/
theorem decode_of_cases (bytes : List UInt8) {h : List Char}
    (hh : List.Forall₂ (fun c d => c = d ∨ c = d.toUpper) h (encode bytes).toList) :
    decode (Utf8.encode (String.ofList h)) = .ok bytes := by
  obtain ⟨hascii, hpairs⟩ := decodePairs_of_cases bytes hh
  have hlen : h.length = 2 * bytes.length := by rw [hh.length_eq, String.length_toList, length_encode]
  rw [Utf8.encode_ofList_ascii hascii, decode, List.length_map, hlen, if_neg (by omega), hpairs]

end Hex

namespace Resolver

variable {m : Type → Type} [Monad m] [Host m] (r : Resolver) (path : KeyPath) {depth : Nat}

/-- Within the depth limit, a `B64STR:` leaf is its payload decoded leniently in
the standard alphabet, as UTF-8 text. -/
theorem resolveText_base64 (hdepth : depth ≤ r.maxDepth) (payload : String) :
    r.resolveText (m := m) path ("B64STR:" ++ payload) depth =
      pure (match Base64.decode .lenient (standardAlphabet payload) with
        | .ok bytes => utf8Value bytes path
        | .error e => .error (.invalidBase64 path e)) := by
  have hd : Directive.parse ("B64STR:" ++ payload) = some ⟨.base64Text, payload⟩ := by
    simpa using Directive.parse_plain (show ("B64STR", Operator.base64Text) ∈ Directive.plainTable by decide) payload
  rw [resolveText_within_limit r path hd hdepth]
  rfl

/-- Within the depth limit, a `HEXSTR:` leaf is its payload decoded from hex, as
UTF-8 text. -/
theorem resolveText_hex (hdepth : depth ≤ r.maxDepth) (payload : String) :
    r.resolveText (m := m) path ("HEXSTR:" ++ payload) depth =
      pure (match Hex.decode (Utf8.encode payload) with
        | .ok bytes => utf8Value bytes path
        | .error e => .error (.invalidHex path e)) := by
  have hd : Directive.parse ("HEXSTR:" ++ payload) = some ⟨.hexText, payload⟩ := by
    simpa using Directive.parse_plain (show ("HEXSTR", Operator.hexText) ∈ Directive.plainTable by decide) payload
  rw [resolveText_within_limit r path hd hdepth]
  rfl

/-- Encoded text resolves to the text. A `B64STR:` leaf may hold the base64
encoding of the text's UTF-8 bytes with padding dropped from its end, `-` and
`_` for `+` and `/`, and ASCII blanks anywhere; a `HEXSTR:` leaf may hold their
hex digits, each in either case. -/
theorem resolveText_encoded_text (hdepth : depth ≤ r.maxDepth) (t : String) :
    (∀ (kept e : List Char) (j : Nat), kept ++ List.replicate j '=' = (Base64.encode (Utf8.encode t)).toList →
      Base64.Respelling kept e →
      r.resolveText (m := m) path ("B64STR:" ++ String.ofList e) depth = pure (.ok (some (.str t)))) ∧
    ∀ h : List Char, List.Forall₂ (fun c d => c = d ∨ c = d.toUpper) h (Hex.encode (Utf8.encode t)).toList →
      r.resolveText (m := m) path ("HEXSTR:" ++ String.ofList h) depth = pure (.ok (some (.str t))) := by
  have htext : utf8Value (Utf8.encode t) path = .ok (some (.str t)) := by
    rw [utf8Value, Utf8.decode_encode]
  refine ⟨fun kept e j hkept he => ?_, fun h hh => ?_⟩
  · rw [resolveText_base64 r path hdepth, Base64.decode_standardAlphabet_respelling _ hkept he]
    exact congrArg pure htext
  · rw [resolveText_hex r path hdepth, Hex.decode_of_cases _ hh]
    exact congrArg pure htext

/-- The text `~~~?` is `fn5+Pw==` in base64 and `7e7e7e3f` in hex; it resolves
from `fn5- Pw`, without padding, with `-` and a blank, and from `7E7e7E3F`. -/
theorem resolveText_encoded_text_respelled :
    "fn5+Pw".toList ++ List.replicate 2 '=' = (Base64.encode (Utf8.encode "~~~?")).toList ∧
    (⟨.bootstrapping, 32⟩ : Resolver).resolveText (m := StateM Machine) [.key "a"]
      ("B64STR:" ++ String.ofList "fn5- Pw".toList) 0 = pure (.ok (some (.str "~~~?"))) ∧
    (⟨.bootstrapping, 32⟩ : Resolver).resolveText (m := StateM Machine) [.key "a"]
      ("HEXSTR:" ++ String.ofList "7E7e7E3F".toList) 0 = pure (.ok (some (.str "~~~?"))) := by
  have hkept : "fn5+Pw".toList ++ List.replicate 2 '=' = (Base64.encode (Utf8.encode "~~~?")).toList := by
    decide +kernel
  have hround := resolveText_encoded_text (m := StateM Machine) ⟨.bootstrapping, 32⟩ [.key "a"]
    (Nat.zero_le _) "~~~?"
  refine ⟨hkept, hround.1 _ _ 2 hkept ?_, hround.2 _ ?_⟩
  · exact .keep 'f' <| .keep 'n' <| .keep '5' <| .dash <| .blank (by decide) <| .keep 'P' <| .keep 'w' .nil
  · decide +kernel

end Resolver

end LayeredConfig
